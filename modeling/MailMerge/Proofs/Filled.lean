import MailMerge.Merge
import MailMerge.Proofs.Scans
import MailMerge.Proofs.Splice

/-!
# Replacing everything at once

`filled` is a text in which all replacements are made at once, read from left to right. It is what
making them one after the other comes to, the last one first: each replacement leaves what is in
front of it as it was (`filled_split`), and so the next one finds its tag where it has been planned
(`filled_cons`).
-/

namespace MailMerge.Text

open Xml.Reader

/-! ## Lines -/

theorem joinLines_cons {line : List Char} {lines : List (List Char)} (h : lines ≠ []) :
    joinLines (line :: lines) = line ++ '\n' :: joinLines lines := by
  obtain ⟨next, lines, rfl⟩ := List.exists_cons_of_ne_nil h
  simp [joinLines, List.intercalate]

theorem joinLines_push {c : Char} {line : List Char} {lines : List (List Char)} :
    joinLines ((c :: line) :: lines) = c :: joinLines (line :: lines) := by
  rcases lines with _ | ⟨next, lines⟩ <;> simp [joinLines, List.intercalate]

theorem lineEnd_pair {c : Char} {rest : List Char}
    (h : Symbol.char? c = some '\r' ∧ rest.head?.bind Symbol.char? = some '\n') :
    c = '\r' ∧ ∃ tail, rest = '\n' :: tail := by
  cases rest with
  | nil => simp at h
  | cons d tail => exact ⟨Option.some.inj h.1, tail, by rw [Option.some.inj h.2]⟩

/-- The lines of a text, joined again, are the text with line feeds as line ends. -/
theorem joinLines_splitLines (cs : List Char) : joinLines (splitLines cs) = lineFeeds cs := by
  fun_induction splitLines cs with
  | case1 => simp [joinLines, lineFeeds, List.intercalate]
  | case2 c rest h ih =>
    obtain ⟨rfl, tail, rfl⟩ := lineEnd_pair h
    rw [ih, lineFeeds, Word.lineFeeds_cons (by decide)]
  | case3 c rest h hc ih =>
    rw [joinLines_cons (splitLines_ne_nil rest), ih, List.nil_append]
    rcases isLineEnd_char.1 hc with rfl | rfl
    · rw [Word.lineFeeds_cons (by decide)]
    · rw [lineFeeds]
      rintro tail rfl
      exact h ⟨rfl, rfl⟩
  | case4 c rest h hc hnil ih => exact absurd hnil (splitLines_ne_nil rest)
  | case5 c rest h hc line lines hl ih =>
    have hr : c ≠ '\r' := fun e => by simp [e, isLineEnd] at hc
    rw [joinLines_push, Word.lineFeeds_cons hr, ← ih, hl]

theorem isLineEnd_of_mem_splitLines {cs : List Char} :
    ∀ line ∈ splitLines cs, ∀ c ∈ line, isLineEnd c = false := by
  fun_induction splitLines cs with
  | case1 => simp
  | case2 c rest h ih => exact ih
  | case3 c rest h hc ih => simpa using ih
  | case4 c rest h hc hnil ih => exact absurd hnil (splitLines_ne_nil rest)
  | case5 c rest h hc line lines hl ih =>
    rw [hl] at ih
    rw [List.forall_mem_cons] at ih ⊢
    exact ⟨List.forall_mem_cons.2 ⟨by simpa using hc, ih.1⟩, ih.2⟩

/-- The lines have no characters of their own. -/
theorem mem_of_mem_splitLines {cs : List Char} {c : Char} :
    ∀ {line : List Char}, line ∈ splitLines cs → c ∈ line → c ∈ cs := by
  fun_induction splitLines cs with
  | case1 => simp
  | case2 d rest h ih => exact fun hl hc => List.mem_cons_of_mem _ (ih hl hc)
  | case3 d rest h hd ih =>
    intro line hl hc
    rcases List.mem_cons.1 hl with rfl | hl
    · cases hc
    · exact List.mem_cons_of_mem _ (ih hl hc)
  | case4 d rest h hd hnil ih => exact absurd hnil (splitLines_ne_nil rest)
  | case5 d rest h hd first lines hsplit ih =>
    rw [hsplit] at ih
    intro line hl hc
    rcases List.mem_cons.1 hl with rfl | hl
    · rcases List.mem_cons.1 hc with rfl | hc
      · exact List.mem_cons_self
      · exact List.mem_cons_of_mem _ (ih List.mem_cons_self hc)
    · exact List.mem_cons_of_mem _ (ih (List.mem_cons_of_mem _ hl) hc)

theorem cr_notMem_splitLines {cs line : List Char} (h : line ∈ splitLines cs) : '\r' ∉ line :=
  fun hr => absurd (isLineEnd_of_mem_splitLines line h _ hr) (by decide)

theorem splitLines_lineFeeds (cs : List Char) : splitLines (lineFeeds cs) = splitLines cs := by
  rw [← joinLines_splitLines,
    splitLines_joinLines (splitLines_ne_nil cs) isLineEnd_of_mem_splitLines]

end MailMerge.Text

namespace MailMerge.Merge

open Xml.Reader

/-- Nothing is put around a value where there is nothing around the name in the construct. -/
theorem replacement_of_bare {c : Construct} {value : List Char} (hl : c.lead = [])
    (ht : c.tail = []) : replacement c value = value := by
  unfold replacement
  split
  · next h => exact h.symm
  · simp [hl, ht]

/-! ## Filled text -/

/-- What shows in the place of a tag: the value with what is around it in the construct, with line
feeds as line ends. -/
def shown (s : Substitution) : List Char := lineFeeds (replacement s.tag.found.parts s.value)

/-- The text `cs`, the first character of which has the position `pos`, with all replacements made
at once. -/
def filled (pos : Nat) (cs : List Char) : List Substitution → List Char
  | [] => cs
  | s :: rest =>
    cs.take (s.tag.found.start - pos) ++ shown s ++
      filled s.tag.found.stop (cs.drop (s.tag.found.stop - pos)) rest

variable {pos m : Nat} {cs : List Char} {subs done : List Substitution} {s : Substitution}

theorem start_le_stop (f : Found) : f.start ≤ f.stop := Nat.le_add_right _ _

/-- In front of all replacements nothing is changed. -/
theorem filled_split (hm : pos ≤ m) (hs : ∀ s ∈ subs, m ≤ s.tag.found.start) :
    filled pos cs subs = cs.take (m - pos) ++ filled m (cs.drop (m - pos)) subs := by
  cases subs with
  | nil => simp [filled]
  | cons s rest =>
    have hstart := hs s List.mem_cons_self
    have hstop := start_le_stop s.tag.found
    have htake : cs.take (s.tag.found.start - pos) =
        cs.take (m - pos) ++ (cs.drop (m - pos)).take (s.tag.found.start - m) := by
      rw [← List.take_add]
      congr 1
      omega
    have hdrop : (cs.drop (m - pos)).drop (s.tag.found.stop - m) =
        cs.drop (s.tag.found.stop - pos) := by
      rw [List.drop_drop]
      congr 1
      omega
    rw [filled, filled, htake, hdrop]
    simp only [List.append_assoc]

section Behind

variable (hm : m ≤ cs.length) (hs : ∀ s ∈ subs, m ≤ s.tag.found.start)

include hm hs

theorem take_filled {k : Nat} (hk : k ≤ m) : (filled 0 cs subs).take k = cs.take k := by
  have hlen : (cs.take m).length = m := by simp [hm]
  rw [filled_split (Nat.zero_le m) hs, Nat.sub_zero,
    List.take_append_of_le_length (hlen.symm ▸ hk), List.take_take, Nat.min_eq_left hk]

theorem drop_filled : (filled 0 cs subs).drop m = filled m (cs.drop m) subs := by
  have hlen : (cs.take m).length = m := by simp [hm]
  rw [filled_split (Nat.zero_le m) hs, Nat.sub_zero, List.drop_left' hlen]

end Behind

/-- A tag that all replacements made so far are behind is where it has been found. -/
theorem standsIn_filled (h : s.tag.found.StandsIn 0 cs)
    (hs : ∀ r ∈ done, s.tag.found.stop ≤ r.tag.found.start) :
    s.tag.found.StandsIn 0 (filled 0 cs done) := by
  obtain ⟨front, back, rfl, hf⟩ := h
  rw [Nat.zero_add] at hf
  refine ⟨front, filled s.tag.found.stop back done, ?_, by rw [hf, Nat.zero_add]⟩
  have hlen : s.tag.found.stop = (front ++ s.tag.found.text).length := by simp [Found.stop, hf]
  rw [filled_split (Nat.zero_le s.tag.found.stop) hs, Nat.sub_zero, ← List.append_assoc front,
    List.take_left' hlen.symm, List.drop_left' hlen.symm, List.append_assoc]

/-- The replacement of a tag in front of all those replaced so far. -/
theorem filled_cons (h : s.tag.found.StandsIn 0 cs)
    (hs : ∀ r ∈ done, s.tag.found.stop ≤ r.tag.found.start) : filled 0 cs (s :: done) =
      (filled 0 cs done).take s.tag.found.start ++ shown s ++
        (filled 0 cs done).drop s.tag.found.stop := by
  have hstop : s.tag.found.stop ≤ cs.length := by simpa using h.stop_le
  rw [filled, Nat.sub_zero, Nat.sub_zero, take_filled hstop hs (start_le_stop _),
    drop_filled hstop hs]

/-- A tag that is all there is. -/
theorem filled_cons_of_whole (h : s.tag.found.StandsIn 0 cs)
    (hs : ∀ r ∈ done, s.tag.found.stop ≤ r.tag.found.start)
    (hw : filled 0 cs done = s.tag.found.text) :
    s.tag.found.start = 0 ∧ filled 0 cs (s :: done) = shown s := by
  have hstart : s.tag.found.start = 0 := by
    obtain ⟨front, back, he, hf⟩ := standsIn_filled h hs
    have hl := congrArg List.length (hw.symm.trans he)
    simp only [List.length_append] at hl
    omega
  refine ⟨hstart, ?_⟩
  rw [filled_cons h hs, hw, hstart, Found.stop, hstart]
  simp

end MailMerge.Merge
