import Mathlib.Tactic.ByContra
import MailMerge.PartName
import MailMerge.Proofs.Folders

/-!
# Spellings of targets

A part can be named from the folder of the main part, or from the top of the package. A name that
starts at the top stands as it is written, while one that starts at the folder is led through its
parts: so both spellings name the same part just if every part of the name leads further in
(`resolve_spellings`). What a target means has a spelling from the top in any case.
-/

namespace MailMerge

namespace Files

theorem splitChar_eq_splitOn (sep : Char) : ∀ cs, splitChar sep cs = cs.splitOn sep
  | [] => rfl
  | c :: cs => by
    rw [splitChar, splitChar_eq_splitOn sep cs, List.splitOn, List.splitOn,
      List.splitOnP_cons_eq_if_modifyHead]
    by_cases hc : c = sep
    · simp [hc]
    · rw [if_neg hc, if_neg (by simpa using hc)]
      cases h : cs.splitOnP fun x => x == sep with
      | nil => exact absurd h (List.splitOnP_ne_nil _ _)
      | cons piece rest => rfl

end Files

namespace PartName

open Files (splitChar)

/-- A part of a path that leads to something in the place that it starts from. -/
structure Inward (part : List Char) : Prop where
  nonempty : part ≠ []
  notHere : part ≠ ['.']
  notUp : part ≠ ['.', '.']

instance (part : List Char) : Decidable (Inward part) :=
  decidable_of_iff (part ≠ [] ∧ part ≠ ['.'] ∧ part ≠ ['.', '.'])
    ⟨fun h => ⟨h.1, h.2.1, h.2.2⟩, fun h => ⟨h.nonempty, h.notHere, h.notUp⟩⟩

/-- A place that a double dot leads back from. -/
def CanLeave (place : List (List Char)) : Prop := place ≠ [] ∧ place.getLast? ≠ some ['.', '.']

variable {place parts : List (List Char)} {part : List Char}

/-! ## One step -/

theorem Inward.step (h : Inward part) : step place part = place ++ [part] := by
  simp [PartName.step, h.nonempty, h.notHere, h.notUp]

theorem Inward.canLeave (h : Inward part) : CanLeave (place ++ [part]) :=
  ⟨by simp, by simpa using h.notUp⟩

/-- A part that does not lead further in leads to a place that is no further in. -/
theorem length_step_of_not_inward (hp : CanLeave place) (h : ¬Inward part) :
    (step place part).length ≤ place.length := by
  unfold PartName.step
  split_ifs with hhere hup
  · exact Nat.le_refl _
  · simp
  · exact absurd ⟨fun hn => hhere (.inl hn), fun hd => hhere (.inr hd), fun hu => hup ⟨hu, hp⟩⟩ h

theorem length_step_le (place : List (List Char)) (part : List Char) :
    (step place part).length ≤ place.length + 1 := by
  unfold PartName.step
  split_ifs
  all_goals simp
  omega

theorem mem_step {p : List Char} (h : p ∈ step place part) :
    p ∈ place ∨ p = part ∧ part ≠ [] := by
  unfold PartName.step at h
  split_ifs at h with hhere
  · exact .inl h
  · exact .inl (List.dropLast_subset _ h)
  · rcases List.mem_append.1 h with h | h
    · exact .inl h
    · exact .inr ⟨List.mem_singleton.1 h, fun hn => hhere (.inl hn)⟩

/-! ## All steps -/

theorem foldl_step_of_inward : ∀ {parts place : List (List Char)}, (∀ p ∈ parts, Inward p) →
    parts.foldl step place = place ++ parts
  | [], _, _ => by simp
  | part :: parts, place, h => by
    rw [List.foldl_cons, (h part List.mem_cons_self).step,
      foldl_step_of_inward fun p hp => h p (List.mem_cons_of_mem _ hp), List.append_assoc,
      List.singleton_append]

theorem length_foldl_step_le : ∀ (parts place : List (List Char)),
    (parts.foldl step place).length ≤ place.length + parts.length
  | [], _ => Nat.le_refl _
  | part :: parts, place => by
    have hstep := length_step_le place part
    have := length_foldl_step_le parts (step place part)
    rw [List.foldl_cons, List.length_cons]
    omega

/-- Where a part does not lead further in, less is left in the end than there are parts. -/
theorem length_foldl_step_lt : ∀ {parts place : List (List Char)}, CanLeave place →
    (∃ p ∈ parts, ¬Inward p) → (parts.foldl step place).length < place.length + parts.length
  | part :: parts, place, hp, h => by
    rw [List.foldl_cons, List.length_cons]
    by_cases hi : Inward part
    · have hrest : ∃ p ∈ parts, ¬Inward p := by
        obtain ⟨p, hm, hn⟩ := h
        rcases List.mem_cons.1 hm with rfl | hm
        · exact absurd hi hn
        · exact ⟨p, hm, hn⟩
      have hleave : CanLeave (place ++ [part]) := hi.canLeave
      have := length_foldl_step_lt hleave hrest
      rw [List.length_append, List.length_singleton] at this
      rw [hi.step]
      omega
    · have hstep := length_step_of_not_inward hp hi
      have := length_foldl_step_le parts (step place part)
      omega

theorem foldl_step_eq_iff (hp : CanLeave place) :
    parts.foldl step place = place ++ parts ↔ ∀ p ∈ parts, Inward p := by
  refine ⟨fun h => ?_, foldl_step_of_inward⟩
  by_contra hn
  have := length_foldl_step_lt hp (by simpa using hn)
  rw [h, List.length_append] at this
  omega

/-- The parts of a place are not empty, and have no slashes. -/
def Clean (place : List (List Char)) : Prop := ∀ p ∈ place, p ≠ [] ∧ '/' ∉ p

theorem Clean.foldl_step : ∀ {parts place : List (List Char)}, Clean place →
    (∀ p ∈ parts, '/' ∉ p) → Clean (parts.foldl step place)
  | [], _, hc, _ => hc
  | part :: parts, place, hc, h => by
    have hstep : Clean (step place part) := by
      intro p hp
      rcases mem_step hp with hm | ⟨rfl, hn⟩
      · exact hc p hm
      · exact ⟨hn, h p List.mem_cons_self⟩
    exact hstep.foldl_step fun p hp => h p (List.mem_cons_of_mem _ hp)

/-! ## What targets mean -/

theorem resolve_of_slash (target : List Char) :
    resolve ('/' :: target) = target.dropWhile (· = '/') := by
  simp [resolve]

/-- The place that a target leads to. -/
def placeOf (target : List Char) : List (List Char) :=
  (splitChar '/' target).foldl step [folder]

theorem clean_placeOf (target : List Char) : Clean (placeOf target) := by
  refine Clean.foldl_step (fun p hp => ?_) fun p => Files.notMem_of_mem_splitChar
  obtain rfl := List.mem_singleton.1 hp
  decide

theorem resolve_of_relative {target : List Char} (h : target.head? ≠ some '/') :
    resolve target = if placeOf target = [] then ['.'] else ['/'].intercalate (placeOf target) := by
  rw [resolve, if_neg h, ← placeOf]
  split
  · next he => rw [if_pos he]
  · next hne => rw [if_neg hne]

/-- Parts without slashes are told by their text. -/
theorem splitChar_intercalate (h : ∀ p ∈ parts, '/' ∉ p) (hne : parts ≠ []) :
    splitChar '/' (['/'].intercalate parts) = parts := by
  rw [Files.splitChar_eq_splitOn]
  exact List.splitOn_intercalate '/' h hne

theorem intercalate_folder (target : List Char) :
    ['/'].intercalate ([folder] ++ splitChar '/' target) = "word/".toList ++ target := by
  have hparts : ['/'].intercalate (target.splitOn '/') = target := List.intercalate_splitOn '/'
  rw [← Files.splitChar_eq_splitOn] at hparts
  cases h : splitChar '/' target with
  | nil =>
    rw [Files.splitChar_eq_splitOn] at h
    exact absurd h (List.splitOnP_ne_nil _ _)
  | cons part rest =>
    rw [List.singleton_append, List.intercalate_cons_cons, ← h, hparts]
    rfl

theorem head?_resolve {target : List Char} (h : target.head? ≠ some '/') :
    (resolve target).head? ≠ some '/' := by
  rw [resolve_of_relative h]
  split_ifs with hne
  · decide
  · have hclean := clean_placeOf target
    obtain ⟨p, rest, he⟩ := List.exists_cons_of_ne_nil hne
    obtain ⟨hp, hslash⟩ := hclean p (he ▸ List.mem_cons_self)
    obtain ⟨c, cs, rfl⟩ := List.exists_cons_of_ne_nil hp
    have hhead : (['/'].intercalate (placeOf target)).head? = some c := by
      rw [he]
      cases rest with
      | nil => simp [List.intercalate_singleton]
      | cons q rest => simp [List.intercalate_cons_cons]
    rw [hhead]
    rintro ⟨⟩
    exact hslash List.mem_cons_self

/-- From the top of the package and from the folder of the main part, a name leads to the same part
just if each of its parts leads further in: from the top it stands as it is written. What a target
means can always be named from the top. -/
theorem resolve_spellings {target : List Char} (h : target.head? ≠ some '/') :
    resolve ("/word/".toList ++ target) = "word/".toList ++ target ∧
      (resolve ("/word/".toList ++ target) = resolve target ↔
        ∀ part ∈ splitChar '/' target, Inward part) ∧
      resolve ('/' :: resolve target) = resolve target := by
  have htop : resolve ("/word/".toList ++ target) = "word/".toList ++ target := by
    simp [resolve]
  refine ⟨htop, ?_, ?_⟩
  · have hfolder : CanLeave [folder] := ⟨by simp, by decide⟩
    rw [htop, ← foldl_step_eq_iff hfolder, ← placeOf, resolve_of_relative h, ← intercalate_folder]
    have hslash : ∀ p ∈ [folder] ++ splitChar '/' target, '/' ∉ p := by
      intro p hp
      rcases List.mem_append.1 hp with hp | hp
      · obtain rfl := List.mem_singleton.1 hp
        decide
      · exact Files.notMem_of_mem_splitChar hp
    constructor
    · intro he
      split_ifs at he with hnone
      · rw [intercalate_folder] at he
        exact absurd he (by simp)
      · have hsplit := congrArg (splitChar '/') he
        rw [splitChar_intercalate hslash (by simp),
          splitChar_intercalate (fun p hp => (clean_placeOf target p hp).2) hnone] at hsplit
        exact hsplit.symm
    · intro he
      rw [he, if_neg (by simp)]
  · have hhead := head?_resolve h
    rw [resolve_of_slash]
    cases hr : resolve target with
    | nil => rfl
    | cons c cs =>
      rw [hr] at hhead
      exact List.dropWhile_cons_of_neg (by simpa using hhead)

theorem resolve_spellings_header :
    "header1.xml".toList.head? ≠ some '/' ∧
      resolve "/word/header1.xml".toList = resolve "header1.xml".toList ∧
      resolve "/header1.xml".toList = resolve "../header1.xml".toList := by
  have hplain := @resolve_spellings "header1.xml".toList (by decide)
  have hup := @resolve_spellings "../header1.xml".toList (by decide)
  refine ⟨by decide, hplain.2.1.2 (by decide), ?_⟩
  have hname : resolve "../header1.xml".toList = "header1.xml".toList := by decide
  rw [hname] at hup
  exact hup.2.2.trans hname.symm

/-- With a dot in it, a name from the top does not lead to the part that it leads to from the folder
of the main part. -/
theorem dotted_spellings_differ :
    resolve "/word/./header1.xml".toList = "word/./header1.xml".toList ∧
      resolve "./header1.xml".toList = "word/header1.xml".toList := by decide

end PartName

end MailMerge
