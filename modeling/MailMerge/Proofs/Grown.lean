import MailMerge.Proofs.Edits

/-!
# Trails that a merge makes

A merge puts two kinds of elements into the attached trees: elements that show text, next to others
that do so in a run, and list items behind paragraphs. Every trail that comes up thus is made out of
trails that have been there (`Made`): a list item stands where its paragraph stands, and what is
copied into it has the names and attributes of what it is a copy of. So a property of all trails
that these constructions keep is one of all trails for good.
-/

namespace MailMerge.Word

open MailMerge.Xml

variable {ts ts' : List (List Key)} {t : List Key}

/-- The trails that are made out of given ones. A list item `i` is made behind a paragraph `k`. -/
inductive Made (ts : List (List Key)) : List Key → Prop
  | old {t : List Key} (h : t ∈ ts) : Made ts t
  | written {k k' m : Key} {u : List Key} (h : Made ts (k :: m :: u))
      (hk : k.name ∈ Names.showing) (hm : m.name = Names.run) (hk' : k'.name ∈ Names.showing) :
      Made ts (k' :: m :: u)
  | item {k i : Key} {w w' u : List Key} (hu : Made ts (k :: u)) (h : Made ts (w' ++ k :: u))
      (hw : w.map Key.face = w'.map Key.face) (hk : k.name = Names.paragraph)
      (hi : i.name = Names.paragraph) : Made ts (w ++ i :: u)
  | run {k i r : Key} {u : List Key} (hu : Made ts (k :: u)) (hk : k.name = Names.paragraph)
      (hi : i.name = Names.paragraph) (hr : r.name = Names.run) : Made ts (r :: i :: u)
  | shown {k i r x : Key} {u : List Key} (hu : Made ts (k :: u)) (hk : k.name = Names.paragraph)
      (hi : i.name = Names.paragraph) (hr : r.name = Names.run) (hx : x.name ∈ Names.showing) :
      Made ts (x :: r :: i :: u)
  | formatting {k i r r' x x' : Key} {w w' v u : List Key} (hu : Made ts (k :: u))
      (h : Made ts (w' ++ x' :: r' :: (v ++ k :: u))) (hw : w.map Key.face = w'.map Key.face)
      (hk : k.name = Names.paragraph) (hi : i.name = Names.paragraph) (hr : r.name = Names.run)
      (hr' : r'.name = Names.run) (hx : x.face = x'.face) (hx' : x'.name = Names.runProperties) :
      Made ts (w ++ x :: r :: i :: u)

theorem Made.trans (h : ∀ t ∈ ts', Made ts t) (ht : Made ts' t) : Made ts t := by
  induction ht with
  | old ht => exact h _ ht
  | written _ hk hm hk' ih => exact .written ih hk hm hk'
  | item _ _ hw hk hi ihu ih => exact .item ihu ih hw hk hi
  | run _ hk hi hr ihu => exact .run ihu hk hi hr
  | shown _ hk hi hr hx ihu => exact .shown ihu hk hi hr hx
  | formatting _ _ hw hk hi hr hr' hx hx' ihu ih => exact .formatting ihu ih hw hk hi hr hr' hx hx'

theorem made_of_written {n : Nat} (h : Written n ts t) : Made ts t := by
  obtain ⟨ht, hk, hm, hk', -⟩ := h
  exact .written (.old ht) hk hm hk'

/-! ## Properties of the names in trails -/

/-- A property of the names in a trail that whatever a merge makes has as well. -/
structure Inherited (good : List Name → Prop) : Prop where
  written : ∀ k k' u, k ∈ Names.showing → k' ∈ Names.showing → good (k :: Names.run :: u) →
    good (k' :: Names.run :: u)
  run : ∀ u, good (Names.paragraph :: u) → good (Names.run :: Names.paragraph :: u)
  shown : ∀ k u, k ∈ Names.showing → good (Names.paragraph :: u) →
    good (k :: Names.run :: Names.paragraph :: u)
  formatting : ∀ w v u, good (Names.paragraph :: u) →
    good (w ++ Names.runProperties :: Names.run :: (v ++ Names.paragraph :: u)) →
      good (w ++ Names.runProperties :: Names.run :: Names.paragraph :: u)

theorem names_of_faces {w w' : List Key} (h : w.map Key.face = w'.map Key.face) :
    w.map (·.name) = w'.map (·.name) := by
  have := congrArg (List.map Key.name) h
  simpa [List.map_map, Function.comp_def, Key.face] using this

theorem Made.names {good : List Name → Prop} (hg : Inherited good)
    (h : ∀ t ∈ ts, good (t.map (·.name))) (ht : Made ts t) : good (t.map (·.name)) := by
  induction ht with
  | old ht => exact h _ ht
  | written _ hk hm hk' ih =>
    simp only [List.map_cons, hm] at ih ⊢
    exact hg.written _ _ _ hk hk' ih
  | item _ _ hw hk hi _ ih =>
    simp only [List.map_append, List.map_cons, hk, hi, names_of_faces hw] at ih ⊢
    exact ih
  | run _ hk hi hr ihu =>
    simp only [List.map_cons, hk, hi, hr] at ihu ⊢
    exact hg.run _ ihu
  | shown _ hk hi hr hx ihu =>
    simp only [List.map_cons, hk, hi, hr] at ihu ⊢
    exact hg.shown _ _ hx ihu
  | formatting _ _ hw hk hi hr hr' hx hx' ihu ih =>
    have hx := (congrArg Key.name hx).trans hx'
    simp only [Key.face] at hx
    simp only [List.map_append, List.map_cons, hk, hi, hr, hr', hx, hx', names_of_faces hw]
      at ihu ih ⊢
    exact hg.formatting _ _ _ ihu ih

/-! ## Steps -/

/-- Part of a merge that changes what the paragraphs in `but` show, and no other ones. -/
abbrev Step (but : Nat → Prop) (f f' : Forest) : Prop :=
  Frame (fun _ _ => True) (Made (trails [] f.attached)) f.next but f f'

namespace Step

variable {f f' f'' : Forest} {but : Nat → Prop}

theorem refl (hf : f.Numbered) : Step but f f := Frame.refl hf

theorem made (h : Step but f f') : ∀ t ∈ trails [] f'.attached, Made (trails [] f.attached) t :=
  fun t ht => (h.shift.new t ht).elim .old id

theorem trans (h : Step but f f') (h' : Step but f' f'') : Step but f f'' :=
  Frame.trans h (h'.mono (Nat.le_refl _) (fun _ _ h => h) (fun _ ht => .trans h.made ht)
    fun _ h => h) h.next

end Step

theorem Frame.step {f f' : Forest} {gone : List Key → List Key → Prop} {come : List Key → Prop}
    {but : Nat → Prop} (h : Frame gone come f.next but f f')
    (hc : ∀ t, come t → Made (trails [] f.attached) t) : Step but f f' :=
  h.mono (Nat.le_refl _) (fun _ _ _ => trivial) hc fun _ h => h

end MailMerge.Word
