import Mathlib.Data.List.Nodup
import MailMerge.Construct

/-!
# What is found in a text

The constructs of a text stand in it where they are said to, one behind the other.
-/

namespace MailMerge

namespace Found

/-- Where the text behind a construct begins. -/
def stop (f : Found) : Nat := f.start + f.text.length

/-- Whether a construct stands at its place in a text, the first character of which is at
`start`. -/
def StandsIn (f : Found) (start : Nat) (cs : List Char) : Prop :=
  ∃ front back, cs = front ++ (f.text ++ back) ∧ f.start = start + front.length

variable {f : Found} {start : Nat} {cs : List Char}

theorem StandsIn.append {text : List Char} (h : f.StandsIn (start + text.length) cs) :
    f.StandsIn start (text ++ cs) := by
  obtain ⟨front, back, rfl, hf⟩ := h
  exact ⟨text ++ front, back, by simp, by simp only [List.length_append]; omega⟩

theorem StandsIn.start_le (h : f.StandsIn start cs) : start ≤ f.start := by
  obtain ⟨front, -, -, hf⟩ := h
  omega

theorem StandsIn.stop_le (h : f.StandsIn start cs) : f.stop ≤ start + cs.length := by
  obtain ⟨front, back, rfl, hf⟩ := h
  simp only [stop, List.length_append]
  omega

theorem StandsIn.take (h : f.StandsIn 0 cs) : (cs.drop f.start).take f.text.length = f.text := by
  obtain ⟨front, back, rfl, hf⟩ := h
  rw [hf, Nat.zero_add, List.drop_left, List.take_left]

end Found

namespace Construct

/-- The constructs that are found stand in the text, and are constructs. -/
theorem scanFrom_spec (start : Nat) (cs : List Char) : ∀ f ∈ scanFrom start cs,
    f.StandsIn start cs ∧ f.text ≠ [] ∧ decompose? f.text = some f.parts := by
  fun_induction scanFrom start cs with
  | case1 start cs text rest h hlt parts hparts ih =>
    rw [← append_of_split? h]
    intro f hf
    rcases List.mem_cons.1 hf with rfl | hf
    · refine ⟨⟨[], rest, rfl, rfl⟩, ?_, hparts⟩
      rintro ⟨⟩
      cases hparts
    · exact ⟨(ih f hf).1.append, (ih f hf).2⟩
  | case2 start cs text rest h hlt hparts ih =>
    rw [← append_of_split? h]
    exact fun f hf => ⟨(ih f hf).1.append, (ih f hf).2⟩
  | case3 => simp
  | case4 start c rest h ih =>
    intro f hf
    have h : f.StandsIn start ([c] ++ rest) := (ih f hf).1.append
    exact ⟨h, (ih f hf).2⟩

theorem scan_spec {cs : List Char} {f : Found} (hf : f ∈ scan cs) :
    f.StandsIn 0 cs ∧ f.text ≠ [] ∧ decompose? f.text = some f.parts :=
  scanFrom_spec 0 cs f hf

/-- What is between the brackets of a text has no other characters than the text. -/
theorem pieces_subset {cs : List Char} : ∀ piece ∈ pieces cs, piece ⊆ cs := by
  induction cs with
  | nil => simp [pieces]
  | cons c cs ih =>
    have later : ∀ piece ∈ pieces cs, piece ⊆ c :: cs := fun piece hp _ hx =>
      List.mem_cons_of_mem c (ih piece hp hx)
    rw [pieces]
    split
    · exact List.forall_mem_cons.2 ⟨List.nil_subset _, later⟩
    · split
      · simp
      · next piece rest hp =>
        rw [hp] at later
        obtain ⟨hpiece, hrest⟩ := List.forall_mem_cons.1 later
        exact List.forall_mem_cons.2
          ⟨List.cons_subset.2 ⟨List.mem_cons_self, hpiece⟩, hrest⟩

theorem around_of_ofPieces? {pieces : List (List Char)} {c : Construct}
    (h : ofPieces? pieces = some c) : c.lead ∈ pieces ∧ c.tail ∈ pieces := by
  unfold ofPieces? at h
  split at h
  · next lead spec tail =>
    dsimp only at h
    generalize (if spec.getLast? = some '?' then spec.dropLast else spec) = name at h
    split_ifs at h
    obtain rfl := Option.some.inj h
    simp
  · cases h

theorem of_decompose? {cs : List Char} {c : Construct} (h : decompose? cs = some c) :
    cs.head? = some '<' ∧ c.tail ⊆ cs := by
  unfold decompose? at h
  split at h
  · next rest =>
    split_ifs at h
    refine ⟨rfl, fun x hx => List.mem_cons_of_mem _ ?_⟩
    exact List.dropLast_subset _ (pieces_subset _ (around_of_ofPieces? h).2 hx)
  · cases h

/-- The constructs of a text stand one behind the other. -/
theorem pairwise_scanFrom (start : Nat) (cs : List Char) :
    (scanFrom start cs).Pairwise fun f g => f.stop ≤ g.start := by
  fun_induction scanFrom start cs with
  | case1 start cs text rest h hlt parts hparts ih =>
    refine List.pairwise_cons.2 ⟨fun g hg => ?_, ih⟩
    exact (scanFrom_spec _ _ g hg).1.start_le
  | case2 _ _ _ _ _ _ _ ih => exact ih
  | case3 => exact .nil
  | case4 _ _ _ _ ih => exact ih

theorem pairwise_scan (cs : List Char) : (scan cs).Pairwise fun f g => f.stop ≤ g.start :=
  pairwise_scanFrom 0 cs

theorem nodup_scan (cs : List Char) : (scan cs).Nodup := by
  refine (pairwise_scan cs).imp_of_mem fun {f g} hf _ hle hfg => ?_
  have := List.length_pos_iff.2 (scan_spec hf).2.1
  rw [← hfg, Found.stop] at hle
  omega

end Construct

end MailMerge
