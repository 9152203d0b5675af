import MailMerge.Proofs.Shown
import MailMerge.Xml.Reader.Content

/-!
# Pieces in which a span has been replaced

`splice` is what a replacement comes to for the pieces of a paragraph. The piece in which the span
begins is written anew, with line ends as line breaks, and what is behind it is trimmed. Where that
piece has no carriage returns, all characters but those of the span stay what they were, in the run
that they were in (`marks_splice`).
-/

namespace MailMerge.Word

open MailMerge.Xml MailMerge.Xml.Reader

/-! ## Line ends -/

theorem lineFeeds_cons {c : Char} (h : c ≠ '\r') (cs : List Char) :
    lineFeeds (c :: cs) = c :: lineFeeds cs := by
  rw [lineFeeds]
  · rintro - rfl -
    exact h rfl
  · rintro rfl
    exact h rfl

theorem lineFeeds_eq_self : ∀ {cs : List Char}, '\r' ∉ cs → lineFeeds cs = cs
  | [], _ => rfl
  | c :: cs, h => by
    simp only [List.mem_cons, not_or] at h
    rw [lineFeeds_cons (Ne.symm h.1), lineFeeds_eq_self h.2]

theorem lineFeeds_append (ds : List Char) : ∀ {cs : List Char}, cs.getLast? ≠ some '\r' →
    lineFeeds (cs ++ ds) = lineFeeds cs ++ lineFeeds ds
  | [], _ => rfl
  | [c], h => by
    have hc : c ≠ '\r' := by simpa using h
    simp [lineFeeds_cons hc, lineFeeds]
  | c :: d :: cs, h => by
    have h' : (d :: cs).getLast? ≠ some '\r' := by simpa using h
    by_cases hc : c = '\r'
    · subst hc
      by_cases hd : d = '\n'
      · subst hd
        rcases cs with _ | ⟨e, cs⟩
        · simp [lineFeeds]
        · have h'' : (e :: cs).getLast? ≠ some '\r' := by simpa using h'
          simpa [lineFeeds] using lineFeeds_append ds h''
      · have step : ∀ x : List Char, lineFeeds ('\r' :: d :: x) = '\n' :: lineFeeds (d :: x) := by
          intro x
          rw [lineFeeds]
          rintro y e
          exact hd (List.cons.inj e).1
        have ih := lineFeeds_append ds h'
        simp only [List.cons_append] at ih ⊢
        rw [step, step, ih, List.cons_append]
    · have ih := lineFeeds_append ds h'
      simp only [List.cons_append] at ih ⊢
      rw [lineFeeds_cons hc, lineFeeds_cons hc, ih, List.cons_append]

theorem cr_notMem_lineFeeds (cs : List Char) : '\r' ∉ lineFeeds cs := by
  fun_induction lineFeeds cs with
  | case1 => simp
  | case2 _ ih => simpa using ih
  | case3 _ _ ih => simpa using ih
  | case4 c rest h₁ h₂ ih =>
    simp only [List.mem_cons, not_or]
    exact ⟨fun e => h₂ e.symm, ih⟩

/-! ## Written text -/

namespace Inline

/-- What an inline element shows. -/
def shown : Inline → List Char
  | tab => ['\t']
  | lineBreak => ['\n']
  | chars cs => cs

def editable : Inline → Bool
  | chars _ => true
  | _ => false

@[simp] theorem shown_tab : tab.shown = ['\t'] := rfl

@[simp] theorem shown_lineBreak : lineBreak.shown = ['\n'] := rfl

@[simp] theorem shown_chars (cs : List Char) : (chars cs).shown = cs := rfl

end Inline

/-- The pieces that a text is written with in a run. -/
def written (run : Nat) (cs : List Char) : List Piece :=
  (inlines cs).map fun i => ⟨run, i.shown, i.editable⟩

theorem inlines_shown (cs : List Char) : (inlines cs).flatMap (·.shown) = lineFeeds cs := by
  fun_induction inlines cs with
  | case1 => rfl
  | case2 rest ih => simp [lineFeeds, ih]
  | case3 rest h ih =>
    rw [lineFeeds_cons (by decide)]
    simp [ih]
  | case4 c rest h hc hl ih =>
    rcases Text.isLineEnd_char.1 hl with rfl | rfl
    · rw [lineFeeds_cons (by decide)]
      simp [ih]
    · rw [lineFeeds]
      · simp [ih]
      · exact fun x e => h x rfl e
  | case5 c rest h hc hl cs more hm ih =>
    have hr : c ≠ '\r' := fun e => by simp [e, Text.isLineEnd] at hl
    rw [lineFeeds_cons hr]
    simp_all
  | case6 c rest h hc hl hm ih =>
    have hr : c ≠ '\r' := fun e => by simp [e, Text.isLineEnd] at hl
    rw [lineFeeds_cons hr]
    simp_all

theorem inlines_ne_nil {cs : List Char} : ∀ i ∈ inlines cs, i.shown ≠ [] := by
  fun_induction inlines cs with
  | case1 => simp
  | case2 rest ih => simpa using ih
  | case3 rest h ih => simpa using ih
  | case4 c rest h hc hl ih => simpa using ih
  | case5 c rest h hc hl cs more hm ih => simp_all
  | case6 c rest h hc hl hm ih => simp_all

/-! ## Replacing a span -/

/-- The pieces without their first `n` characters. What is cut into goes away if it cannot be
edited. -/
def trim (n : Nat) : List Piece → List Piece
  | [] => []
  | p :: rest =>
    (if n < p.chars.length then [{ p with chars := p.chars.drop n }] else []) ++
      trim (n - p.chars.length) rest

/-- A piece with other characters, if there are any. -/
def refilled (p : Piece) (cs : List Char) : List Piece :=
  if cs = [] then [] else [{ p with chars := cs }]

/-- The pieces with other text in the place of the characters from `start` up to `stop`. -/
def splice (start stop : Nat) (new : List Char) : List Piece → List Piece
  | [] => []
  | p :: rest =>
    if p.chars.length ≤ start then
      p :: splice (start - p.chars.length) (stop - p.chars.length) new rest
    else
      (if new = [] then refilled p (p.chars.take start ++ p.chars.drop stop)
        else written p.run (p.chars.take start ++ new ++ p.chars.drop stop)) ++
          trim (stop - p.chars.length) rest

/-- The characters of pieces, each with the number of its run. -/
def marks (ps : List Piece) : List (Char × Nat) :=
  ps.flatMap fun p => p.chars.map fun c => (c, p.run)

@[simp] theorem marks_nil : marks [] = [] := rfl

@[simp] theorem marks_cons (p : Piece) (ps : List Piece) :
    marks (p :: ps) = p.chars.map (fun c => (c, p.run)) ++ marks ps := rfl

@[simp] theorem marks_append (ps qs : List Piece) : marks (ps ++ qs) = marks ps ++ marks qs := by
  simp [marks]

theorem spelled_eq (ps : List Piece) : spelled ps = (marks ps).map (·.1) := by
  simp [spelled, marks, List.map_flatMap, Function.comp_def]

theorem length_marks (ps : List Piece) : (marks ps).length = (spelled ps).length := by
  rw [spelled_eq, List.length_map]

theorem marks_written (run : Nat) (cs : List Char) :
    marks (written run cs) = (lineFeeds cs).map fun c => (c, run) := by
  rw [← inlines_shown]
  simp [marks, written, List.flatMap_map, List.map_flatMap]

theorem marks_refilled (p : Piece) (cs : List Char) :
    marks (refilled p cs) = cs.map fun c => (c, p.run) := by
  unfold refilled
  split
  · next h => simp [h]
  · simp

theorem marks_trim : ∀ (n : Nat) (ps : List Piece), marks (trim n ps) = (marks ps).drop n
  | n, [] => by simp [trim]
  | n, p :: rest => by
    rw [trim, marks_append, marks_trim, marks_cons, List.drop_append, List.length_map]
    split
    · simp
    · next h => simpa using Nat.not_lt.1 h

/-- The piece in which a span begins, with those before and behind it. -/
theorem exists_splice {start : Nat} (stop : Nat) (new : List Char) : ∀ {ps : List Piece},
    start < (spelled ps).length → ∃ (front : List Piece) (p : Piece) (back : List Piece),
      ps = front ++ p :: back ∧ (spelled front).length ≤ start ∧
        start < (spelled front).length + p.chars.length ∧
          splice start stop new ps = front ++
            ((if new = [] then refilled p (p.chars.take (start - (spelled front).length) ++
                p.chars.drop (stop - (spelled front).length))
              else written p.run (p.chars.take (start - (spelled front).length) ++ new ++
                p.chars.drop (stop - (spelled front).length))) ++
              trim (stop - (spelled front).length - p.chars.length) back)
  | [], h => by simp at h
  | p :: rest, h => by
    rw [spelled_cons, List.length_append] at h
    by_cases hp : p.chars.length ≤ start
    · have hlt : start - p.chars.length < (spelled rest).length := by omega
      obtain ⟨front, q, back, rfl, h₁, h₂, h₃⟩ :=
        exists_splice (stop - p.chars.length) new hlt
      refine ⟨p :: front, q, back, rfl, ?_, ?_, ?_⟩
      · rw [spelled_cons, List.length_append]
        omega
      · rw [spelled_cons, List.length_append]
        omega
      · rw [splice, if_pos hp, h₃, spelled_cons, List.length_append, Nat.sub_sub, Nat.sub_sub,
          List.cons_append]
    · refine ⟨[], p, rest, rfl, by simp, by simpa using hp, ?_⟩
      rw [splice, if_neg hp]
      simp

/-- Where the text before the span is free of carriage returns, replacing the span is replacing
characters: the new ones are in the run that the span begins in. -/
theorem marks_splice {start stop : Nat} {new : List Char} {ps : List Piece}
    (hs : start < (spelled ps).length) (hle : start ≤ stop) (hps : ∀ p ∈ ps, '\r' ∉ p.chars)
    (hnew : new.getLast? ≠ some '\r') : ∃ x, (marks ps)[start]? = some x ∧
      marks (splice start stop new ps) =
        (marks ps).take start ++ (lineFeeds new).map (fun c => (c, x.2)) ++
          (marks ps).drop stop := by
  obtain ⟨front, p, back, rfl, h₁, h₂, h₃⟩ := exists_splice stop new hs
  have hp : '\r' ∉ p.chars := hps p (by simp)
  rw [← length_marks] at h₁ h₂ h₃
  set k := (marks front).length with hk
  have core : marks (if new = [] then refilled p (p.chars.take (start - k) ++
      p.chars.drop (stop - k)) else written p.run (p.chars.take (start - k) ++ new ++
        p.chars.drop (stop - k))) =
      (p.chars.take (start - k) ++ lineFeeds new ++ p.chars.drop (stop - k)).map
        fun c => (c, p.run) := by
    split
    · next hn => simp [hn, marks_refilled, lineFeeds]
    · have hl : (p.chars.take (start - k)).getLast? ≠ some '\r' := fun h =>
        hp (List.mem_of_mem_take (List.mem_of_getLast? h))
      rw [marks_written, List.append_assoc, lineFeeds_append _ hl, lineFeeds_append _ hnew,
        lineFeeds_eq_self fun h => hp (List.mem_of_mem_take h),
        lineFeeds_eq_self fun h => hp (List.mem_of_mem_drop h), List.append_assoc]
  obtain ⟨c, hc⟩ : ∃ c, p.chars[start - k]? = some c :=
    ⟨_, List.getElem?_eq_getElem (by omega)⟩
  refine ⟨(c, p.run), ?_, ?_⟩
  · rw [marks_append, List.getElem?_append_right h₁, ← hk, marks_cons,
      List.getElem?_append_left (by rw [List.length_map]; omega), List.getElem?_map, hc]
    rfl
  · rw [h₃, marks_append, marks_append, core, marks_trim, marks_append, marks_cons,
      List.take_append, List.drop_append, List.take_append, List.drop_append, ← hk,
      List.take_of_length_le (by omega : (marks front).length ≤ start),
      List.drop_eq_nil_of_le (by omega : (marks front).length ≤ stop)]
    have ht : start - k - p.chars.length = 0 := by omega
    simp [ht]

theorem spelled_splice {start stop : Nat} {new : List Char} {ps : List Piece}
    (hs : start < (spelled ps).length) (hle : start ≤ stop) (hps : ∀ p ∈ ps, '\r' ∉ p.chars)
    (hnew : new.getLast? ≠ some '\r') : spelled (splice start stop new ps) =
      (spelled ps).take start ++ lineFeeds new ++ (spelled ps).drop stop := by
  obtain ⟨x, -, h⟩ := marks_splice hs hle hps hnew
  simp [spelled_eq, h, List.map_take, List.map_drop, Function.comp_def]

end MailMerge.Word
