import MailMerge.Proofs.FileNames

/-!
# Numbers for names that are taken

The search for a free name goes on for as long as the name that it looks at is taken (`Turn`). The
names that it has looked at are taken and different, so it has no more turns than there are used
names (`acc_ofNumber`), and it ends at the first numbered name that is free (`reaches_ofNumber`),
which is the one that is chosen (`exists_first`). Names that are chosen one after another are told
apart, also from numbered names that are asked for later (`choice_is_first`).
-/

namespace MailMerge.FileName

variable {used used' : List Points} {stem : Points}

/-! ## The first free name -/

/-- The first number whose name is free. The name without a number has number one. -/
structure First (used : List Points) (stem : Points) (n : Nat) : Prop where
  one_le : 1 ≤ n
  free : Text.lower (numbered stem n) ∉ used
  taken : ∀ k, 1 ≤ k → k < n → Text.lower (numbered stem k) ∈ used

theorem exists_first (used : List Points) (stem : Points) :
    ∃ n, First used stem n ∧ free used stem = numbered stem n := by
  obtain ⟨n, hn, he, htaken⟩ := exists_freeFrom used stem used.length 1
  refine ⟨n, ⟨hn, ?_, htaken⟩, he⟩
  have hfree := lower_free_notMem used stem
  rwa [free, he] at hfree

theorem First.unique {m n : Nat} (hm : First used stem m) (hn : First used stem n) : m = n := by
  rcases Nat.lt_trichotomy m n with h | h | h
  · exact absurd (hn.taken m hm.one_le h) hm.free
  · exact h
  · exact absurd (hm.taken n hn.one_le h) hn.free

/-- How often a name is used, and when, does not count. -/
theorem free_congr (h : ∀ name, name ∈ used' ↔ name ∈ used) : free used' stem = free used stem := by
  obtain ⟨n, hn, he⟩ := exists_first used stem
  obtain ⟨n', hn', he'⟩ := exists_first used' stem
  have hsame : First used stem n' :=
    ⟨hn'.one_le, mt (h _).2 hn'.free, fun k hk hkn => (h _).1 (hn'.taken k hk hkn)⟩
  rw [he, he', hsame.unique hn]

theorem numbered_of_two_le {n : Nat} (h : 2 ≤ n) :
    numbered stem n = stem ++ points ('-' :: Decimal.natText n) := by
  rw [numbered, if_neg (by omega)]

/-! ## The search -/

/-- A place in the search: the name that is looked at, and the number that the next one gets. -/
structure Attempt where
  name : Points
  next : Nat

namespace Attempt

/-- The search begins with the name that is asked for. -/
def first (stem : Points) : Attempt := ⟨stem, 2⟩

/-- The place where a numbered name is looked at. -/
def ofNumber (stem : Points) (n : Nat) : Attempt := ⟨numbered stem n, n + 1⟩

/-- One turn of the search: a name that is taken gives way to the stem with the next number. -/
inductive Turn (used : List Points) (stem : Points) : Attempt → Attempt → Prop
  | taken {a : Attempt} (h : Text.lower a.name ∈ used) :
      Turn used stem a ⟨stem ++ points ('-' :: Decimal.natText a.next), a.next + 1⟩

theorem turn_iff {n : Nat} (hn : 1 ≤ n) {a : Attempt} : Turn used stem (ofNumber stem n) a ↔
    Text.lower (numbered stem n) ∈ used ∧ a = ofNumber stem (n + 1) := by
  have hnext : ofNumber stem (n + 1) = ⟨stem ++ points ('-' :: Decimal.natText (n + 1)), n + 1 + 1⟩ := by
    rw [ofNumber, numbered_of_two_le (by omega)]
  rw [hnext]
  constructor
  · rintro ⟨h⟩
    exact ⟨h, rfl⟩
  · rintro ⟨h, rfl⟩
    exact .taken (a := ofNumber stem n) h

/-- The search has an end, wherever among the numbered names it is. -/
theorem acc_ofNumber {n : Nat} (hn : 1 ≤ n)
    (htaken : ∀ k, 1 ≤ k → k < n → Text.lower (numbered stem k) ∈ used) :
    Acc (fun b a => Turn used stem a b) (ofNumber stem n) := by
  refine ⟨_, fun b hb => ?_⟩
  obtain ⟨h, rfl⟩ := (turn_iff hn).1 hb
  have htaken' : ∀ k, 1 ≤ k → k < n + 1 → Text.lower (numbered stem k) ∈ used := by
    intro k hk hkn
    rcases Nat.lt_succ_iff_lt_or_eq.1 hkn with hlt | rfl
    · exact htaken k hk hlt
    · exact h
  have hlen : n ≤ used.length := le_length_of_taken fun k hk hkn => htaken' k hk (by omega)
  exact acc_ofNumber (by omega) htaken'
termination_by used.length + 1 - n

/-- The search gets to every numbered name that has only taken ones before it. -/
theorem reaches_ofNumber : ∀ {n : Nat},
    (∀ k, 1 ≤ k → k < n + 1 → Text.lower (numbered stem k) ∈ used) →
      Relation.ReflTransGen (Turn used stem) (first stem) (ofNumber stem (n + 1))
  | 0, _ => .refl
  | n + 1, h => by
    have hreach := reaches_ofNumber (n := n) fun k hk hkn => h k hk (by omega)
    exact hreach.tail ((turn_iff (by omega)).2 ⟨h (n + 1) (by omega) (by omega), rfl⟩)

end Attempt

/-! ## Names one after another -/

/-- The names that have been used after some more have been chosen. -/
def usedAfter (used : List Points) (stems : List Points) : List Points :=
  ((chooseAll used stems).map Text.lower).reverse ++ used

theorem usedAfter_cons (used : List Points) (stem : Points) (rest : List Points) :
    usedAfter used (stem :: rest) = usedAfter (Text.lower (free used stem) :: used) rest := by
  simp [usedAfter, chooseAll]

theorem chooseAll_append : ∀ (used before after : List Points),
    chooseAll used (before ++ after) =
      chooseAll used before ++ chooseAll (usedAfter used before) after
  | used, [], after => by simp [usedAfter, chooseAll]
  | used, stem :: before, after => by
    rw [usedAfter_cons, List.cons_append, chooseAll, chooseAll, chooseAll_append, List.cons_append]

/-- The names that are chosen are different in small letters from each other and from the used
ones. -/
theorem chooseAll_apart : ∀ (used stems : List Points),
    ((chooseAll used stems).map Text.lower).Nodup ∧
      ∀ name ∈ chooseAll used stems, Text.lower name ∉ used
  | _, [] => ⟨.nil, by simp [chooseAll]⟩
  | used, stem :: rest => by
    obtain ⟨hnd, hnot⟩ := chooseAll_apart (Text.lower (free used stem) :: used) rest
    simp only [chooseAll, List.map_cons, List.nodup_cons, List.mem_map, List.mem_cons]
    refine ⟨⟨?_, hnd⟩, ?_⟩
    · rintro ⟨name, hm, he⟩
      exact hnot name hm (he ▸ List.mem_cons_self)
    · rintro name (rfl | hm)
      · exact lower_free_notMem used stem
      · exact fun h => hnot name hm (.tail _ h)

/-- What a search for a free name ends with: the search has an end, and gets to the name; the name
is free; it is the one that is asked for, if this is free, and otherwise has the least number from
two on whose name is free. -/
structure Chosen (used : List Points) (stem name : Points) : Prop where
  ends : Acc (fun b a => Attempt.Turn used stem a b) (.first stem)
  reached : ∃ next, Relation.ReflTransGen (Attempt.Turn used stem) (.first stem) ⟨name, next⟩
  free : Text.lower name ∉ used
  asked : Text.lower stem ∉ used → name = stem
  least : Text.lower stem ∈ used → ∃ k, 2 ≤ k ∧ name = stem ++ points ('-' :: Decimal.natText k) ∧
    ∀ j, 2 ≤ j → j < k → Text.lower (stem ++ points ('-' :: Decimal.natText j)) ∈ used

theorem First.chosen {n : Nat} (h : First used stem n) : Chosen used stem (numbered stem n) where
  ends := Attempt.acc_ofNumber (n := 1) (Nat.le_refl 1) (by omega)
  reached := by
    obtain ⟨n, rfl⟩ := Nat.exists_eq_add_of_le' h.one_le
    exact ⟨_, Attempt.reaches_ofNumber h.taken⟩
  free := h.free
  asked hfree := by
    rcases Nat.eq_or_lt_of_le h.one_le with rfl | hlt
    · rfl
    · exact absurd (h.taken 1 (Nat.le_refl 1) hlt) hfree
  least hused := by
    have hn : 2 ≤ n := by
      rcases Nat.eq_or_lt_of_le h.one_le with rfl | hlt
      · exact absurd hused h.free
      · exact hlt
    refine ⟨n, hn, numbered_of_two_le hn, fun j hj hjn => ?_⟩
    rw [← numbered_of_two_le hj]
    exact h.taken j (by omega) hjn

/-- The search for a free name has an end, and what it ends with is the first free name, however the
used names are listed. From then on the name is used, and no other one. So names that are chosen one
after another, whatever is asked for, are different in small letters. -/
theorem choice_is_first (used : List Points) (stem : Points) (stems : List Points) :
    Chosen used stem (free used stem) ∧
      (∀ used', (∀ name, name ∈ used' ↔ name ∈ used) → free used' stem = free used stem) ∧
      (∀ name, name ∈ usedAfter used [stem] ↔ name ∈ used ∨ name = Text.lower (free used stem)) ∧
      (∀ later, chooseAll used (stems ++ later) =
        chooseAll used stems ++ chooseAll (usedAfter used stems) later) ∧
      ((chooseAll used stems).map Text.lower).Nodup ∧
      ∀ name ∈ chooseAll used stems, Text.lower name ∉ used := by
  obtain ⟨n, hn, he⟩ := exists_first used stem
  refine ⟨he ▸ hn.chosen, fun _ => free_congr, fun name => ?_, chooseAll_append used stems,
    chooseAll_apart used stems⟩
  simp [usedAfter, chooseAll, or_comm]

/-- A numbered name that is asked for later gets a number of its own. -/
example : (chooseAll [] (["a", "A", "a-2"].map (points ·.toList))).map Points.string =
    ["a", "A-2", "a-2-2"] := by decide +kernel

end MailMerge.FileName
