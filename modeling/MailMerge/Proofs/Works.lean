import MailMerge.Merge

/-!
# What comes of work

Work gives a result or an error, and a new state in either case. `Meets x s good bad` says of work
from a state that its result satisfies `good` and its error `bad`; the lemmas take work apart into
its steps (`meets_bind`), down to looking at trees and editing them (`meets_view`, `meets_edit`).
Of what has no state, `RefusesFor` says why it gives no result.
-/

namespace MailMerge

/-- The result and the new state satisfy `good`, or the error and the new state `bad`. -/
def Meets {ε σ α : Type} (x : EStateM ε σ α) (s : σ) (good : α → σ → Prop)
    (bad : ε → σ → Prop) : Prop :=
  match x s with
  | .ok a s' => good a s'
  | .error e s' => bad e s'

section Meets

variable {ε σ α β : Type} {x : EStateM ε σ α} {s : σ} {good good' : α → σ → Prop}
  {bad bad' : ε → σ → Prop}

theorem Meets.mono (h : Meets x s good bad) (hg : ∀ a s', good a s' → good' a s')
    (hb : ∀ e s', bad e s' → bad' e s') : Meets x s good' bad' := by
  unfold Meets at *
  split at h
  · exact hg _ _ h
  · exact hb _ _ h

theorem Meets.and (h : Meets x s good bad) (h' : Meets x s good' bad') :
    Meets x s (fun a s' => good a s' ∧ good' a s') fun e s' => bad e s' ∧ bad' e s' := by
  unfold Meets at *
  split at h
  · next hx => exact ⟨h, by simpa [hx] using h'⟩
  · next hx => exact ⟨h, by simpa [hx] using h'⟩

theorem meets_forall {ι : Sort _} {good : ι → α → σ → Prop} {bad : ι → ε → σ → Prop} :
    Meets x s (fun a s' => ∀ i, good i a s') (fun e s' => ∀ i, bad i e s') ↔
      ∀ i, Meets x s (good i) (bad i) := by
  unfold Meets
  split <;> rfl

theorem Meets.of_ok {a : α} {s' : σ} (h : Meets x s good bad) (hx : x s = .ok a s') :
    good a s' := by
  simpa [Meets, hx] using h

theorem Meets.of_error {e : ε} {s' : σ} (h : Meets x s good bad) (hx : x s = .error e s') :
    bad e s' := by
  simpa [Meets, hx] using h

theorem meets_of_ok {a : α} {s' : σ} (hx : x s = .ok a s') : Meets x s good bad ↔ good a s' := by
  simp [Meets, hx]

theorem meets_self (x : EStateM ε σ α) (s : σ) :
    Meets x s (fun a s' => x s = .ok a s') fun e s' => x s = .error e s' := by
  unfold Meets
  cases x s <;> rfl

@[simp]
theorem meets_pure {a : α} : Meets (pure a) s good bad ↔ good a s := Iff.rfl

@[simp]
theorem meets_throw {e : ε} : Meets (throw e : EStateM ε σ α) s good bad ↔ bad e s := Iff.rfl

@[simp]
theorem meets_get {good : σ → σ → Prop} : Meets (get : EStateM ε σ σ) s good bad ↔ good s s :=
  Iff.rfl

@[simp]
theorem meets_set {t : σ} {good : PUnit → σ → Prop} :
    Meets (set t : EStateM ε σ PUnit) s good bad ↔ good ⟨⟩ t := Iff.rfl

@[simp]
theorem meets_modify {f : σ → σ} {good : PUnit → σ → Prop} :
    Meets (modify f : EStateM ε σ PUnit) s good bad ↔ good ⟨⟩ (f s) := Iff.rfl

@[simp]
theorem meets_bind {f : α → EStateM ε σ β} {good : β → σ → Prop} :
    Meets (x >>= f) s good bad ↔ Meets x s (fun a s' => Meets (f a) s' good bad) bad := by
  have h : (x >>= f) s = match x s with
    | .ok a s' => f a s'
    | .error e s' => .error e s' := rfl
  unfold Meets
  rw [h]
  cases x s <;> rfl

theorem meets_foldlM {f : β → α → EStateM ε σ β} {inv : List α → β → σ → Prop} :
    ∀ {l : List α} {b : β} {s : σ}, inv l b s →
      (∀ a rest b s, inv (a :: rest) b s → Meets (f b a) s (inv rest) bad) →
        Meets (l.foldlM f b) s (inv []) bad
  | [], _, _, h, _ => h
  | a :: l, b, s, h, hf => by
    rw [List.foldlM_cons, meets_bind]
    exact (hf a l b s h).mono (fun b' s' h' => meets_foldlM h' hf) fun _ _ h => h

theorem Meets.exists_ok (h : Meets x s good fun _ _ => False) :
    ∃ a s', x s = .ok a s' ∧ good a s' := by
  unfold Meets at h
  split at h
  · next a s' hx => exact ⟨a, s', hx, h⟩
  · exact h.elim

theorem Meets.exists_error (h : Meets x s (fun _ _ => False) bad) :
    ∃ e s', x s = .error e s' ∧ bad e s' := by
  unfold Meets at h
  split at h
  · exact h.elim
  · next e s' hx => exact ⟨e, s', hx, h⟩

/-- What comes of work can be seen by doing it. -/
instance [∀ a s', Decidable (good a s')] [∀ e s', Decidable (bad e s')] :
    Decidable (Meets x s good bad) :=
  match hx : x s with
  | .ok a s' => decidable_of_iff (good a s') (meets_of_ok hx).symm
  | .error e s' => decidable_of_iff (bad e s') (by simp [Meets, hx])

/-- What holds of the state after work can be seen by doing it. -/
theorem exists_of_ok {p : σ → Bool}
    (h : (match x s with | .ok _ s' => p s' | .error _ _ => false) = true) :
    ∃ a s', x s = .ok a s' ∧ p s' = true := by
  split at h
  · next a s' hx => exact ⟨a, s', hx, h⟩
  · cases h

end Meets

section Document

variable {α : Type} {d : Document} {bad : Error → Document → Prop}

@[simp]
theorem meets_view {g : Xml.Forest → α} {good : α → Document → Prop} :
    Meets (Document.view g) d good bad ↔ good (g d.forest) d := Iff.rfl

@[simp]
theorem meets_edit {x : Word.Edit α} {good : α → Document → Prop} :
    Meets (Document.edit x) d good bad ↔ Meets x d.forest (fun a f => good a { d with forest := f })
      fun e f => bad e { d with forest := f } := by
  cases h : x d.forest with
  | ok a f =>
    have hx : Document.edit x d = .ok a { d with forest := f } := by
      simp only [Document.edit, show x.run d.forest = .ok a f from h]
    simp only [Meets, h, hx]
  | error e f =>
    have hx : Document.edit x d = .error e { d with forest := f } := by
      simp only [Document.edit, show x.run d.forest = .error e f from h]
    simp only [Meets, h, hx]

@[simp]
theorem meets_report {level : Log.Level} {origin : Log.Origin} {message : String}
    {good : Unit → Document → Prop} : Meets (Document.report level origin message) d good bad ↔
      good () { d with log := d.log ++ [⟨level, origin, message⟩] } := Iff.rfl

/-- Only the trees of a document and its log differ. -/
def SameParts (d d' : Document) : Prop := d' = { d with forest := d'.forest, log := d'.log }

theorem SameParts.refl (d : Document) : SameParts d d := rfl

theorem SameParts.trans {d d' d'' : Document} (h : SameParts d d') (h' : SameParts d' d'') :
    SameParts d d'' := by
  unfold SameParts at *
  rw [h', h]

end Document

section Except

variable {ε α β : Type} {causes causes' : ε → Prop} {x : Except ε α}

/-- What fails has one of the causes. -/
abbrev RefusesFor (causes : ε → Prop) (x : Except ε α) : Prop := ∀ e, x = .error e → causes e

theorem refusesFor_ok {a : α} : RefusesFor causes (.ok a : Except ε α) := fun _ h => by cases h

theorem refusesFor_error {e : ε} (h : causes e) : RefusesFor causes (.error e : Except ε α) :=
  fun _ he => by cases he; exact h

theorem RefusesFor.bind {g : α → Except ε β} (hx : RefusesFor causes x)
    (hg : ∀ a, x = .ok a → RefusesFor causes (g a)) : RefusesFor causes (x >>= g) := by
  cases x with
  | error e => exact fun _ h => by cases h; exact hx e rfl
  | ok a => exact hg a rfl

theorem exists_of_bind {g : α → Except ε β} {b : β} (h : x >>= g = .ok b) :
    ∃ a, x = .ok a ∧ g a = .ok b := by
  cases x with
  | error e => cases h
  | ok a => exact ⟨a, rfl, h⟩

theorem RefusesFor.map {g : α → β} (hx : RefusesFor causes x) : RefusesFor causes (g <$> x) := by
  cases x with
  | error e => exact fun _ h => by cases h; exact hx e rfl
  | ok a => exact refusesFor_ok

theorem RefusesFor.mono (hx : RefusesFor causes x) (h : ∀ e, causes e → causes' e) :
    RefusesFor causes' x := fun e he => h e (hx e he)

/-- What is done unless something holds that work fails for. -/
theorem RefusesFor.unless {p : Prop} [Decidable p] {e : ε} {g : PUnit → Except ε β}
    (hp : p → causes e) (hg : ¬p → RefusesFor causes (g ⟨⟩)) :
    RefusesFor causes (if p then (do let r ← throw e; g r) else g ⟨⟩) := by
  split
  · next h => exact refusesFor_error (hp h)
  · next h => exact hg h

theorem RefusesFor.mapM {g : α → Except ε β} :
    ∀ {l : List α}, (∀ a ∈ l, RefusesFor causes (g a)) → RefusesFor causes (l.mapM g)
  | [], _ => refusesFor_ok
  | a :: l, h => by
    rw [List.mapM_cons]
    refine (h a List.mem_cons_self).bind fun b _ => ?_
    exact (RefusesFor.mapM fun a' ha => h a' (List.mem_cons_of_mem a ha)).bind fun _ _ =>
      refusesFor_ok

end Except

end MailMerge
