import Mathlib.Data.List.Nodup
import Mathlib.Data.List.Range
import Mathlib.Data.List.Perm.Subperm
import MailMerge.FileName

/-!
# Names are told apart

A name that has been made safe has none of the characters that are not safe. The first free name is
free: as the numbered names of a stem are different in small letters, one of them is not taken
(`lower_free_notMem`).
-/

namespace MailMerge

namespace Text

/-- A symbol that ends a word, and is its own small letter. -/
structure Inert (p : CodePoint) : Prop where
  uncased : isCased p = false
  counts : isCaseIgnorable p = false
  lower : lowerPoint p = [p]
  sigma : p ≠ capitalSigma

theorem inert_dash : Inert '-' := ⟨by decide +kernel, by decide +kernel, by decide, by decide⟩

theorem inert_slash : Inert '/' :=
  ⟨by decide +kernel, by decide +kernel, by decide, by decide⟩

theorem startsCased_append {p : CodePoint} (hp : Inert p) (ps qs : Points) :
    startsCased (ps ++ p :: qs) = startsCased ps := by
  unfold startsCased
  rw [List.find?_append]
  cases hf : ps.find? fun p => !isCaseIgnorable p with
  | some x => rfl
  | none => simp [hp.counts, hp.uncased]

/-- What follows the end of a word does not count for the small letters in front of it. -/
theorem lowerAfter_append {p : CodePoint} (hp : Inert p) (qs : Points) :
    ∀ (before ps : Points), lowerAfter before (ps ++ p :: qs) =
      lowerAfter before ps ++ p :: lowerAfter (p :: (ps.reverse ++ before)) qs
  | before, [] => by simp [lowerAfter, hp.sigma, hp.lower]
  | before, x :: ps => by
    have ih := lowerAfter_append hp qs (x :: before) ps
    simp only [List.cons_append, lowerAfter, lowerSigma, startsCased_append hp, ih,
      List.reverse_cons, List.append_assoc, List.nil_append]
    split <;> simp

/-- Where there is no capital sigma, each symbol has its own small letter. -/
theorem lowerAfter_of_notMem : ∀ {before ps : Points}, capitalSigma ∉ ps →
    lowerAfter before ps = ps.flatMap lowerPoint
  | _, [], _ => rfl
  | before, p :: ps, h => by
    obtain ⟨hp, hps⟩ := List.ne_and_not_mem_of_not_mem_cons h
    rw [lowerAfter, if_neg (Ne.symm hp), lowerAfter_of_notMem hps, List.flatMap_cons]

/-- Behind the end of a word the small letters do not depend on what stands in front. -/
theorem lower_front {front ps : Points}
    (hf : front = [] ∨ ∃ f p, front = f ++ [p] ∧ Inert p) (hp : capitalSigma ∉ ps) :
    lower (front ++ ps) = lower front ++ ps.flatMap lowerPoint := by
  rcases hf with rfl | ⟨f, p, rfl, hi⟩
  · exact lowerAfter_of_notMem hp
  · have h := lowerAfter_append hi ps [] f
    have h' := lowerAfter_append hi [] [] f
    rw [lowerAfter_of_notMem hp] at h
    simp only [lower, List.append_assoc, h, h', lowerAfter, List.cons_append,
      List.nil_append]

theorem lowerChar_of_isDigit {c : Char} (hc : c.isDigit = true) : lowerChar c = [c] := by
  simp only [Char.isDigit, Bool.and_eq_true, decide_eq_true_eq, ge_iff_le,
    UInt32.le_iff_toNat_le] at hc
  have hle : c.toNat ≤ 57 := hc.2
  have hlower : c.toLower = c := by
    unfold Char.toLower
    split
    · next h =>
      have : 65 ≤ c.toNat := by simpa [UInt32.le_iff_toNat_le] using h.1
      omega
    · rfl
  rw [lowerChar, if_pos (by omega), hlower]

theorem lowerAfter_of_isDigit : ∀ {before : Points} {cs : List Char},
    (∀ c ∈ cs, c.isDigit = true) → lowerAfter before (points cs) = points cs
  | _, [], _ => rfl
  | before, c :: cs, h => by
    have hc := h c List.mem_cons_self
    have hs : (c : CodePoint) ≠ capitalSigma := by
      intro he
      obtain rfl : c = '\u03a3' := CodePoint.char.inj he
      exact absurd hc (by decide)
    rw [points_cons, lowerAfter, if_neg hs, lowerPoint, lowerChar_of_isDigit hc,
      lowerAfter_of_isDigit fun x hx => h x (List.mem_cons_of_mem _ hx)]
    rfl

end Text

namespace Decimal

theorem isDigit_of_mem_natText {n : Nat} {c : Char} (h : c ∈ natText n) : c.isDigit = true :=
  Nat.isDigit_of_mem_toDigits (by decide) (by decide) h

theorem natText_injective {m n : Nat} (h : natText m = natText n) : m = n := by
  have := congrArg (Nat.ofDigitChars 10 · 0) h
  simpa only [natText, Nat.ofDigitChars_toDigits (b := 10) (by decide) (by decide)] using this

end Decimal

namespace FileName

theorem isUnsafe_of_mem_replaceUnsafe : ∀ {ps : Points} {p : CodePoint}, p ∈ replaceUnsafe ps →
    isUnsafe p = false
  | x :: ps, p, h => by
    unfold replaceUnsafe at h
    split_ifs at h with hx hr
    · exact isUnsafe_of_mem_replaceUnsafe h
    · rcases List.mem_cons.1 h with rfl | h
      · decide +kernel
      · exact isUnsafe_of_mem_replaceUnsafe h
    · rcases List.mem_cons.1 h with rfl | h
      · simpa using hx
      · exact isUnsafe_of_mem_replaceUnsafe h

theorem isUnsafe_of_mem_safe {ps : Points} {p : CodePoint} (h : p ∈ safe ps) :
    isUnsafe p = false := by
  refine isUnsafe_of_mem_replaceUnsafe (show p ∈ replaceUnsafe ps from ?_)
  have h₁ := (List.dropWhile_suffix _).subset (List.mem_reverse.1 h)
  exact (List.dropWhile_suffix _).subset (List.mem_reverse.1 h₁)

theorem lower_numbered (stem : Points) (n : Nat) : Text.lower (numbered stem n) =
    if n ≤ 1 then Text.lower stem else Text.lower stem ++ points ('-' :: Decimal.natText n) := by
  unfold numbered
  split_ifs with h
  · rfl
  · rw [points_cons, Text.lower, Text.lowerAfter_append Text.inert_dash,
      Text.lowerAfter_of_isDigit fun c => Decimal.isDigit_of_mem_natText]
    rfl

/-- The numbered names of a stem are different, also in small letters. -/
theorem eq_of_lower_numbered {stem : Points} {m n : Nat} (hm : 1 ≤ m) (hn : 1 ≤ n)
    (h : Text.lower (numbered stem m) = Text.lower (numbered stem n)) : m = n := by
  rw [lower_numbered, lower_numbered] at h
  split_ifs at h with h₁ h₂ h₂
  · omega
  · simpa using congrArg List.length h
  · simpa using congrArg List.length h
  · exact Decimal.natText_injective (points_injective (by simpa using h))

/-- What is found is a numbered name, and the numbered names before it are taken. -/
theorem exists_freeFrom (used : List Points) (stem : Points) : ∀ fuel n, ∃ m, n ≤ m ∧
    freeFrom used stem n fuel = numbered stem m ∧
      ∀ k, n ≤ k → k < m → Text.lower (numbered stem k) ∈ used
  | 0, n => ⟨n, Nat.le_refl n, rfl, by omega⟩
  | fuel + 1, n => by
    unfold freeFrom
    split_ifs with h
    · obtain ⟨m, hm, he, hall⟩ := exists_freeFrom used stem fuel (n + 1)
      refine ⟨m, by omega, he, fun k hk hkm => ?_⟩
      rcases Nat.eq_or_lt_of_le hk with rfl | hlt
      · exact h
      · exact hall k hlt hkm
    · exact ⟨n, Nat.le_refl n, rfl, by omega⟩

theorem exists_free (used : List Points) (stem : Points) :
    ∃ n, free used stem = numbered stem n :=
  let ⟨n, _, hn, _⟩ := exists_freeFrom used stem used.length 1
  ⟨n, hn⟩

/-- If the name that is found is taken, all those before it are. -/
theorem mem_of_freeFrom {used : List Points} {stem : Points} : ∀ {fuel n : Nat},
    Text.lower (freeFrom used stem n fuel) ∈ used →
      ∀ k, n ≤ k → k ≤ n + fuel → Text.lower (numbered stem k) ∈ used
  | 0, n, h, k, hk, hk' => by
    obtain rfl : k = n := by omega
    exact h
  | fuel + 1, n, h, k, hk, hk' => by
    unfold freeFrom at h
    split_ifs at h with hu
    · rcases Nat.eq_or_lt_of_le hk with rfl | hlt
      · exact hu
      · exact mem_of_freeFrom h k hlt (by omega)
    · exact absurd h hu

/-- No more numbered names are taken one after another than there are used ones. -/
theorem le_length_of_taken {used : List Points} {stem : Points} {n : Nat}
    (h : ∀ k, 1 ≤ k → k ≤ n → Text.lower (numbered stem k) ∈ used) : n ≤ used.length := by
  have hnd : ((List.range' 1 n).map fun k => Text.lower (numbered stem k)).Nodup := by
    refine List.Nodup.map_on (fun a ha b hb hab => ?_) List.nodup_range'
    rw [List.mem_range'_1] at ha hb
    exact eq_of_lower_numbered ha.1 hb.1 hab
  have hsub : (List.range' 1 n).map (fun k => Text.lower (numbered stem k)) ⊆ used := by
    intro x hx
    obtain ⟨k, hk, rfl⟩ := List.mem_map.1 hx
    rw [List.mem_range'_1] at hk
    exact h k hk.1 (by omega)
  have := (hnd.subperm hsub).length_le
  rwa [List.length_map, List.length_range'] at this

theorem lower_free_notMem (used : List Points) (stem : Points) :
    Text.lower (free used stem) ∉ used := by
  intro h
  have := le_length_of_taken (n := used.length + 1) fun k hk hkn =>
    mem_of_freeFrom h k hk (by omega)
  omega

end FileName

end MailMerge
