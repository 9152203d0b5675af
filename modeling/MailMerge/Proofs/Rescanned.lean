import MailMerge.Proofs.Filled

/-!
# Scanning a filled text again

A replacement can put the brackets around a tag together to a new one: `<<<<A>>>>` becomes `<<B>>`.
Where every bracket of a text is part of a tag (`Construct.Flat`) and the values have no brackets,
this does not happen: what is found in the text with all replacements made are the tags that have
not been replaced (`Merge.exists_of_scan_filled`).
-/

namespace MailMerge

namespace Construct

/-! ## The texts that are constructs -/

/-- Whether a text has no brackets. -/
def Literal (cs : List Char) : Prop := ∀ x ∈ cs, isLiteral x = true

instance : DecidablePred Literal := fun cs => List.decidableBAll _ cs

@[simp] theorem literal_nil : Literal [] := by simp [Literal]

@[simp] theorem literal_cons {c : Char} {cs : List Char} :
    Literal (c :: cs) ↔ isLiteral c = true ∧ Literal cs := List.forall_mem_cons

/-- Whether a construct is read back as it is written. -/
structure Readable (c : Construct) : Prop where
  lead : Literal c.lead
  name : ∀ x ∈ c.name, isNameChar x = true
  nonempty : c.name ≠ []
  tail : Literal c.tail

theorem dropWhile_front {p : Char → Bool} {c : Char} {front : List Char} (rest : List Char)
    (h : ∀ x ∈ front, p x = true) (hc : p c = false) :
    (front ++ c :: rest).dropWhile p = c :: rest := by
  rw [List.dropWhile_append_of_pos h, List.dropWhile_cons_of_neg (by simp [hc])]

theorem exists_of_dropWhile {p : Char → Bool} {cs rest : List Char} (h : cs.dropWhile p = rest) :
    ∃ front, (∀ x ∈ front, p x = true) ∧ cs = front ++ rest :=
  ⟨cs.takeWhile p, List.all_eq_true.1 List.all_takeWhile,
    by rw [← h, List.takeWhile_append_dropWhile]⟩

theorem after?_written {c : Construct} (hc : c.Readable) (rest : List Char) :
    after? (c.written ++ rest) = some rest := by
  have inner : ∀ text : List Char, skipMark (text.dropWhile isNameChar) = '>' :: (c.tail ++ '>' :: rest) →
      text.takeWhile isNameChar ≠ [] → after? ('<' :: (c.lead ++ '<' :: text)) = some rest := by
    intro text hs hn
    simp only [after?, dropWhile_front text hc.lead (by decide : isLiteral '<' = false), if_neg hn, hs,
      dropWhile_front rest hc.tail (by decide : isLiteral '>' = false)]
  have name : ∀ (m : Char) (outer : List Char), isNameChar m = false →
      (c.name ++ m :: outer).dropWhile isNameChar = m :: outer ∧
        (c.name ++ m :: outer).takeWhile isNameChar = c.name := by
    intro m outer hm
    exact ⟨dropWhile_front outer hc.name hm, by
      rw [List.takeWhile_append_of_pos hc.name, List.takeWhile_cons_of_neg (by simp [hm]),
        List.append_nil]⟩
  cases ho : c.optional with
  | false =>
    obtain ⟨hd, ht⟩ := name '>' (c.tail ++ '>' :: rest) (by decide)
    have hne := ht.symm ▸ hc.nonempty
    simpa [written, spec, ho] using inner _ (by rw [hd]; rfl) hne
  | true =>
    obtain ⟨hd, ht⟩ := name '?' ('>' :: (c.tail ++ '>' :: rest)) (by decide)
    have hne := ht.symm ▸ hc.nonempty
    simpa [written, spec, ho] using inner _ (by rw [hd]; rfl) hne

/-- What a text begins with when a construct is read off it has been written. -/
theorem exists_written {cs rest : List Char} (h : after? cs = some rest) :
    ∃ c : Construct, c.Readable ∧ cs = c.written ++ rest := by
  unfold after? at h
  split at h <;> try contradiction
  next rest' =>
  split at h <;> try contradiction
  next inner hinner =>
  split_ifs at h with hname
  split at h <;> try contradiction
  next outer houter =>
  split at h <;> try contradiction
  next rest'' hrest =>
  obtain rfl := Option.some.inj h
  obtain ⟨lead, hlead, rfl⟩ := exists_of_dropWhile hinner
  obtain ⟨tail, htail, rfl⟩ := exists_of_dropWhile hrest
  have hn : ∀ x ∈ inner.takeWhile isNameChar, isNameChar x = true :=
    List.all_eq_true.1 List.all_takeWhile
  have hcut : inner = inner.takeWhile isNameChar ++ inner.dropWhile isNameChar :=
    List.takeWhile_append_dropWhile.symm
  unfold skipMark at houter
  split at houter
  · next mark hmark =>
    refine ⟨⟨lead, inner.takeWhile isNameChar, true, tail⟩, ⟨hlead, hn, hname, htail⟩, ?_⟩
    rw [hmark, houter] at hcut
    conv_lhs => rw [hcut]
    simp [written, spec]
  · refine ⟨⟨lead, inner.takeWhile isNameChar, false, tail⟩, ⟨hlead, hn, hname, htail⟩, ?_⟩
    rw [houter] at hcut
    conv_lhs => rw [hcut]
    simp [written, spec]

/-- Which construct a text begins with does not depend on what follows it. -/
theorem split?_append {cs text rest : List Char} (h : split? cs = some (text, rest))
    (more : List Char) : split? (text ++ more) = some (text, more) := by
  have happend := append_of_split? h
  simp only [split?, Option.map_eq_some_iff, Prod.mk.injEq] at h
  obtain ⟨_, hafter, -, rfl⟩ := h
  obtain ⟨c, hc, hcs⟩ := exists_written hafter
  obtain rfl := List.append_cancel_right (happend.trans hcs)
  rw [split?, after?_written hc, Option.map_some, List.length_append, Nat.add_sub_cancel,
    List.take_left]

/-! ## Scanning -/

theorem split?_literal {x : Char} (hx : isLiteral x = true) (cs : List Char) :
    split? (x :: cs) = none := by
  have hne : x ≠ '<' := by
    rintro rfl
    cases hx
  simp [split?, after?, hne]

theorem scanFrom_of_none {start : Nat} {x : Char} {cs : List Char} (h : split? (x :: cs) = none) :
    scanFrom start (x :: cs) = scanFrom (start + 1) cs := by
  rw [scanFrom]
  split
  · next hs => cases hs.symm.trans h
  · rfl

theorem scanFrom_literals {start : Nat} {front cs : List Char}
    (h : Literal front) : scanFrom start (front ++ cs) = scanFrom (start + front.length) cs := by
  induction front generalizing start with
  | nil => rfl
  | cons x front ih =>
    obtain ⟨hx, h⟩ := List.forall_mem_cons.1 h
    rw [List.cons_append, scanFrom_of_none (split?_literal hx _), ih h, List.length_cons,
      Nat.add_right_comm, Nat.add_assoc]

theorem scanFrom_nil {start : Nat} : scanFrom start [] = [] := by
  rw [scanFrom]
  rfl

/-- A construct that a text begins with is found first. -/
theorem scanFrom_of_split? {start : Nat} {cs text rest : List Char}
    (h : split? cs = some (text, rest)) : scanFrom start cs =
      ((decompose? text).map (Found.mk start text)).toList ++
        scanFrom (start + text.length) rest := by
  rw [scanFrom]
  split
  · next text' rest' hs =>
    obtain ⟨rfl, rfl⟩ := Prod.mk.inj (Option.some.inj (hs.symm.trans h))
    split
    · next hp => simp [hp]
    · next hp => simp [hp]
  · next hs => cases hs.symm.trans h

/-- Whether every bracket of a text, the first character of which is at `start`, is part of a
construct that is found in it. -/
def FlatFrom (start : Nat) (cs : List Char) : Prop :=
  ∀ i, (h : i < cs.length) → isBracket cs[i] = true →
    ∃ f ∈ scanFrom start cs, f.start ≤ start + i ∧ start + i < f.stop

def Flat (cs : List Char) : Prop := FlatFrom 0 cs

instance (start : Nat) : DecidablePred (FlatFrom start) := fun cs =>
  inferInstanceAs (Decidable (∀ i, (h : i < cs.length) → isBracket cs[i] = true → _))

instance : DecidablePred Flat := inferInstanceAs (DecidablePred (FlatFrom 0))

theorem FlatFrom.behind {start : Nat} {front cs : List Char} (h : FlatFrom start (front ++ cs))
    (hs : ∀ f ∈ scanFrom start (front ++ cs), f ∈ scanFrom (start + front.length) cs ∨
      f.stop ≤ start + front.length) : FlatFrom (start + front.length) cs := by
  intro i hi hb
  obtain ⟨f, hf, hle, hlt⟩ := h (front.length + i) (by rw [List.length_append]; omega) <| by
    rw [List.getElem_append_right (Nat.le_add_right _ _)]
    simpa using hb
  refine ⟨f, (hs f hf).resolve_right (by omega), by omega, by omega⟩

theorem FlatFrom.rest {start : Nat} {text rest : List Char} (hf : FlatFrom start (text ++ rest))
    (h : split? (text ++ rest) = some (text, rest)) : FlatFrom (start + text.length) rest := by
  refine hf.behind fun f hm => ?_
  rw [scanFrom_of_split? h] at hm
  rcases List.mem_append.1 hm with hm | hm
  · obtain ⟨parts, -, rfl⟩ := Option.map_eq_some_iff.1 (Option.mem_toList.1 hm)
    exact .inr (Nat.le_refl _)
  · exact .inl hm

/-- A bracket that no construct begins with would have to be in one that begins behind it. -/
theorem FlatFrom.literal_head {pos : Nat} {c : Char} {rest : List Char}
    (hf : FlatFrom pos (c :: rest)) (h : split? (c :: rest) = none) : isLiteral c = true := by
  by_contra hc
  obtain ⟨f, hm, hle, -⟩ := hf 0 (by simp) (by simpa [isLiteral] using hc)
  rw [scanFrom_of_none h] at hm
  have := (scanFrom_spec _ _ _ hm).1.start_le
  omega

/-- What is found behind a text does not begin with it. -/
theorem ne_of_mem_scanFrom {pos : Nat} {text rest : List Char} {parts : Construct} {f : Found}
    (hm : f ∈ scanFrom (pos + text.length) rest) : f ≠ ⟨pos, text, parts⟩ := by
  rintro rfl
  have := (scanFrom_spec _ _ _ hm).1.start_le
  have := List.length_pos_of_ne_nil (scanFrom_spec _ _ _ hm).2.1
  dsimp only at *
  omega

theorem literal_of_mem_pieces {cs : List Char} : ∀ piece ∈ pieces cs, Literal piece := by
  induction cs with
  | nil => simp [pieces]
  | cons c cs ih =>
    rw [pieces]
    split
    · exact List.forall_mem_cons.2 ⟨literal_nil, ih⟩
    · next hc =>
      have hc : isLiteral c = true := by simpa [isLiteral] using hc
      split
      · simpa using hc
      · next piece rest hp =>
        rw [hp, List.forall_mem_cons] at ih
        exact List.forall_mem_cons.2 ⟨literal_cons.2 ⟨hc, ih.1⟩, ih.2⟩

/-- The texts around a tag have no brackets. -/
theorem literal_of_decompose? {cs : List Char} {c : Construct} (h : decompose? cs = some c) :
    Literal c.lead ∧ Literal c.tail := by
  unfold decompose? at h
  split at h
  · split_ifs at h
    obtain ⟨hlead, htail⟩ := around_of_ofPieces? h
    exact ⟨literal_of_mem_pieces _ hlead, literal_of_mem_pieces _ htail⟩
  · cases h

end Construct

namespace Merge

open Construct Xml.Reader

theorem mem_lineFeeds {cs : List Char} {x : Char} (h : x ∈ lineFeeds cs) : x ∈ cs ∨ x = '\n' := by
  fun_induction lineFeeds cs <;> grind

theorem literal_lineFeeds {cs : List Char} (h : Literal cs) : Literal (lineFeeds cs) := by
  intro x hx
  rcases mem_lineFeeds hx with hx | rfl
  · exact h x hx
  · decide

theorem literal_shown {s : Substitution}
    (hp : decompose? s.tag.found.text = some s.tag.found.parts) (hv : Literal s.value) :
    Literal (shown s) := by
  obtain ⟨hlead, htail⟩ := literal_of_decompose? hp
  refine literal_lineFeeds fun x hx => ?_
  unfold replacement at hx
  split at hx
  · cases hx
  · simp only [List.mem_append] at hx
    rcases hx with (hx | hx) | hx
    · exact hlead x hx
    · exact hv x hx
    · exact htail x hx

theorem filled_append {pos : Nat} {front cs : List Char} {subs : List Substitution}
    (h : ∀ s ∈ subs, pos + front.length ≤ s.tag.found.start) :
    filled pos (front ++ cs) subs = front ++ filled (pos + front.length) cs subs := by
  rw [filled_split (Nat.le_add_right _ _) h, Nat.add_sub_cancel_left, List.take_left, List.drop_left]

/-- What is found in a flat text with replacements made has been found in the text, and has not been
replaced. -/
theorem exists_of_scan_filled {pos : Nat} {cs : List Char} {subs : List Substitution}
    (hf : FlatFrom pos cs) (hsub : (subs.map (·.tag.found)).Sublist (scanFrom pos cs))
    (hv : ∀ s ∈ subs, Literal s.value) (start : Nat) :
    ∀ g ∈ scanFrom start (filled pos cs subs), ∃ f ∈ scanFrom pos cs,
      f ∉ subs.map (·.tag.found) ∧ g.parts = f.parts := by
  have behind : ∀ {pos : Nat} {cs : List Char} {subs : List Substitution},
      (subs.map (·.tag.found)).Sublist (scanFrom pos cs) →
        ∀ s ∈ subs, pos ≤ s.tag.found.start := fun hsub s hs =>
    (scanFrom_spec _ _ _ (hsub.subset (List.mem_map_of_mem hs))).1.start_le
  induction pos, cs using scanFrom.induct generalizing subs start with
  | case1 pos cs text rest h hlt parts hparts ih =>
    obtain rfl := append_of_split? h
    have hscan : scanFrom pos _ = _ := scanFrom_of_split? h
    rw [hparts, Option.map_some, Option.toList_some, List.singleton_append] at hscan
    rw [hscan] at hsub ⊢
    rcases List.sublist_cons_iff.1 hsub with hsub | ⟨r, hr, hsub⟩
    · intro g hg
      rw [filled_append (behind hsub), scanFrom_of_split? (split?_append h _), hparts,
        Option.map_some, Option.toList_some, List.singleton_append, List.mem_cons] at hg
      rcases hg with rfl | hg
      · exact ⟨_, List.mem_cons_self, fun hm => ne_of_mem_scanFrom (hsub.subset hm) rfl,
          rfl⟩
      · obtain ⟨f, hm, hn, he⟩ := ih (hf.rest h) hsub hv _ g hg
        exact ⟨f, List.mem_cons_of_mem _ hm, hn, he⟩
    · obtain ⟨s, subs, rfl, hfound, rfl⟩ := List.map_eq_cons_iff.1 hr
      obtain ⟨hvs, hv⟩ := List.forall_mem_cons.1 hv
      have hfill : filled pos (text ++ rest) (s :: subs) =
          shown s ++ filled (pos + text.length) rest subs := by
        simp [filled, hfound, Found.stop]
      intro g hg
      rw [hfill, scanFrom_literals (literal_shown (by rw [hfound]; exact hparts) hvs)] at hg
      obtain ⟨f, hm, hn, he⟩ := ih (hf.rest h) hsub hv _ g hg
      refine ⟨f, List.mem_cons_of_mem _ hm, fun hm' => ?_, he⟩
      exact (List.mem_cons.1 hm').elim (fun e => ne_of_mem_scanFrom hm (e.trans hfound)) hn
  | case2 pos cs text rest h hlt hparts ih =>
    obtain rfl := append_of_split? h
    have hscan : scanFrom pos _ = _ := scanFrom_of_split? h
    rw [hparts, Option.map_none, Option.toList_none, List.nil_append] at hscan
    rw [hscan] at hsub ⊢
    intro g hg
    rw [filled_append (behind hsub), scanFrom_of_split? (split?_append h _), hparts,
      Option.map_none, Option.toList_none, List.nil_append] at hg
    exact ih (hf.rest h) hsub hv _ g hg
  | case3 pos h =>
    rw [scanFrom_nil, List.sublist_nil, List.map_eq_nil_iff] at hsub
    simp [hsub, filled, scanFrom_nil]
  | case4 pos c rest h ih =>
    have hscan : scanFrom pos (c :: rest) = scanFrom (pos + 1) rest := scanFrom_of_none h
    rw [hscan] at hsub ⊢
    intro g hg
    rw [← List.singleton_append, filled_append (behind hsub),
      scanFrom_literals (by simpa using hf.literal_head h)] at hg
    have hf : FlatFrom pos ([c] ++ rest) := hf
    exact ih (hf.behind fun f hm => .inl (hscan ▸ hm)) hsub hv _ g hg

end Merge

end MailMerge
