import MailMerge.Proofs.Plain

/-!
# Looking at documents

Whatever is listed of a document, all that happens to the document is that something is reported and
that parts are read (`Looks`). A part has the same tree before it is read and afterwards (`tree?`,
`Looks.tree?`), so what has been listed before makes no difference to what is listed.
-/

namespace MailMerge

open Xml

/-- The tree without numbers that a member of a package holds, if there is one. -/
def Package.tree? (p : Package) (name : String) : Except Error (Option Element) :=
  (p.document? name 0).map fun found => found.map fun found => found.1.root.plain

namespace Document

variable {d d' : Document} {name : String}

/-- The tree of a part without its numbers: the one that has been read, or else the one that is in
the package. -/
def tree? (d : Document) (name : String) : Except Error (Option Element) :=
  match d.rootOf name with
  | some r => .ok ((d.forest.element? r).map Element.plain)
  | none => match d.package? with
    | none => .error (.document .closed [])
    | some p => p.tree? name

/-- What is read has a tree that does not depend on where its numbers start. -/
theorem read?_plain (bytes : Text.Bytes) (n m : Nat) :
    (Xml.Document.read? bytes n).map (·.1.root.plain) =
      (Xml.Document.read? bytes m).map (·.1.root.plain) := by
  simp only [Xml.Document.read?, Option.bind_eq_bind, Option.map_bind]
  refine congrArg (Option.bind _) (funext fun cs => ?_)
  simp only [Function.comp_apply, Option.map_bind]
  refine congrArg (Option.bind _) (funext fun x => ?_)
  simp [Element.renumber_plain]

theorem package_tree? (p : Package) (name : String) (n : Nat) : p.tree? name =
    (p.document? name n).map fun found => found.map fun found => found.1.root.plain := by
  unfold Package.tree? Package.document?
  split
  · rfl
  · next bytes _ =>
    have h := read?_plain bytes 0 n
    cases hn : Xml.Document.read? bytes 0 <;> cases hm : Xml.Document.read? bytes n <;>
      simp_all [Except.map]

theorem tree?_of_rootOf {r : Nat} (h : d.rootOf name = some r) :
    d.tree? name = .ok ((d.forest.element? r).map Element.plain) := by
  simp [tree?, h]

/-- What a part has been found to be when it is looked at. -/
inductive Looked (d : Document) (name : String) : Option Nat → Document → Prop
  | known {r : Nat} (h : d.rootOf name = some r) : Looked d name (some r) d
  | missing {p : Package} (h : d.rootOf name = none) (hp : d.package? = some p)
      (hb : p.bytes? name = none) : Looked d name none d
  | read {p : Package} {x : Xml.Document} {next : Nat} (h : d.rootOf name = none)
      (hp : d.package? = some p) (hx : p.document? name d.forest.next = .ok (some (x, next))) :
      Looked d name (some x.root.tag.id) { d with
        parts := d.parts ++ [⟨name, x.root.tag.id, x.frame⟩]
        forest := d.forest.plant x.root next }

theorem partRoot?_looked (name : String) (d : Document) : Meets (partRoot? name) d (Looked d name)
    fun err d' => d' = d ∧ d.tree? name = .error err := by
  simp only [partRoot?, meets_bind, meets_get]
  split
  · next part hpart => exact .known (by simp [rootOf, hpart])
  · next hnone =>
    have hr : d.rootOf name = none := by simp [rootOf, hnone]
    rcases Option.eq_none_or_eq_some d.package? with hp | ⟨p, hp⟩
    · simp only [Meets, bind, EStateM.bind, package_of_none hp]
      exact ⟨trivial, by simp [tree?, hr, hp]⟩
    rw [meets_bind, meets_of_ok (package_of_some hp)]
    split
    · next err he =>
      refine ⟨rfl, ?_⟩
      simp only [tree?, hr, hp, package_tree? p name d.forest.next, he]
      rfl
    · next he =>
      have hdoc := document?_spec p name d.forest.next
      rw [he] at hdoc
      exact .missing hr hp hdoc
    · next x next he =>
      simp only [meets_bind, meets_set, meets_pure]
      exact .read hr hp he

/-! ## Steps -/

/-- A step of looking at a document. -/
inductive Look (d d' : Document) : Prop
  | report {level : Log.Level} {origin : Log.Origin} {message : String}
      (h : report level origin message d = .ok () d')
  | part {name : String} {r : Option Nat} (h : partRoot? name d = .ok r d')

abbrev Looks : Document → Document → Prop := Relation.ReflTransGen Look

theorem Look.reads (h : Look d d') : Reads d d' := by
  cases h with
  | @report level origin message h =>
    have hr : Reading (Document.report level origin message) d True fun _ _ => True :=
      reading_report
    exact (Meets.of_ok hr h).1
  | part h => exact (Meets.of_ok reading_partRoot? h).1

theorem Looks.reads (h : Looks d d') : Reads d d' := by
  induction h with
  | refl => exact .refl d
  | tail _ h ih => exact ih.trans h.reads

theorem Planted.element? {f f' : Forest} (h : Planted f f') (hf : f.Numbered) {i : Nat}
    {e : Element} (he : f.element? i = some e) : f'.element? i = some e := by
  obtain ⟨hhas, hi⟩ := hf.element?_eq_some.1 he
  exact (h.numbered hf).element?_eq_some.2 ⟨h.has hhas, hi⟩

theorem Filed.root? (h : d.Filed) {r : Nat} (hr : d.rootOf name = some r) :
    ∃ e ∈ d.forest.attached.children, d.forest.element? r = some e := by
  obtain ⟨part, hp, rfl⟩ := mem_parts_of_rootOf hr
  obtain ⟨e, he, hid⟩ := h.parts part hp
  exact ⟨e, he, h.numbered.element?_eq_some.2 ⟨.inl (Content.children_subset _ e he), hid⟩⟩

theorem rootOf_append (part : Part) (h : d.rootOf part.name = none) (name : String) (f : Forest) :
    ({ d with parts := d.parts ++ [part], forest := f } : Document).rootOf name =
      if part.name = name then some part.root else d.rootOf name := by
  have hsplit : ({ d with parts := d.parts ++ [part], forest := f } : Document).rootOf name =
      (d.rootOf name).or (if part.name = name then some part.root else none) := by
    simp only [rootOf, List.find?_append, Option.map_or]
    split <;> simp [*]
  rw [hsplit]
  split
  · next hn => rw [← hn, h, Option.none_or]
  · exact Option.or_none

theorem planted_of_document? {p : Package} {f : Forest} {x : Xml.Document} {next : Nat}
    (h : p.document? name f.next = .ok (some (x, next))) : Planted f (f.plant x.root next) := by
  have hdoc := document?_spec p name f.next
  rw [h] at hdoc
  exact ⟨x.root, next, rfl, hdoc.2.1, hdoc.2.2.1, hdoc.2.2.2⟩

theorem element?_plant {f : Forest} {root : Element} {next : Nat} (hf : f.Numbered)
    (h : Planted f (f.plant root next)) : (f.plant root next).element? root.tag.id = some root :=
  (h.numbered hf).element?_of_has (.inl (by simp [Forest.plant, Content.elements]))

/-- Looking at a part leaves the trees of all parts what they are. -/
theorem Looked.tree? {r : Option Nat} (h : Looked d name r d') (hd : d.Filed) (name' : String) :
    d'.tree? name' = d.tree? name' := by
  cases h with
  | known | missing => rfl
  | @read p x next h hp hx =>
    have hpl := planted_of_document? hx
    have hroot := rootOf_append ⟨name, x.root.tag.id, x.frame⟩ h name'
      (d.forest.plant x.root next)
    simp only at hroot
    by_cases hn : name = name'
    · subst hn
      rw [Document.tree?, hroot, if_pos rfl, Document.tree?, h, hp]
      simp only [element?_plant hd.numbered hpl, package_tree? p name d.forest.next, hx]
      rfl
    · rw [if_neg hn] at hroot
      cases hr : d.rootOf name' with
      | none => simp only [Document.tree?, hroot, hr]
      | some r =>
        obtain ⟨e, -, he⟩ := hd.root? hr
        rw [tree?_of_rootOf hr, tree?_of_rootOf (hroot.trans hr), he,
          Planted.element? hpl hd.numbered he]

theorem Looks.tree? (h : Looks d d') (hd : d.Filed) (name : String) :
    d'.tree? name = d.tree? name := by
  induction h with
  | refl => rfl
  | tail hs h ih =>
    rw [← ih]
    cases h with
    | report h =>
      obtain rfl := (EStateM.Result.ok.inj h).2
      rfl
    | part h => exact ((partRoot?_looked _ _).of_ok h).tree? ((Looks.reads hs).filed hd) name

/-! ## What looks -/

/-- Work that only looks at a document, whether it fails or not. -/
abbrev Looking {α : Type} (x : Work α) (d : Document) : Prop :=
  Meets x d (fun _ => Looks d) fun _ => Looks d

section Looking

variable {α β : Type}

theorem Looking.bind {x : Work α} {g : α → Work β} (h : Looking x d)
    (hg : ∀ a d', Looks d d' → Looking (g a) d') : Looking (x >>= g) d := by
  rw [Looking, meets_bind]
  refine h.mono (fun a d' hd => ?_) fun _ _ h => h
  exact (hg a d' hd).mono (fun _ _ h => hd.trans h) fun _ _ h => hd.trans h

theorem Looking.of_ok {x : Work α} {a : α} (h : Looking x d) (hx : x d = .ok a d') :
    Looks d d' := by
  simpa only [Looking, Meets, hx] using h

theorem Looking.of_error {x : Work α} {err : Error} (h : Looking x d) (hx : x d = .error err d') :
    Looks d d' := by
  simpa only [Looking, Meets, hx] using h

theorem looking_pure {a : α} : Looking (pure a) d := .refl

theorem looking_report {level : Log.Level} {origin : Log.Origin} {message : String} :
    Looking (report level origin message) d := .single (.report rfl)

theorem looking_partRoot? : Looking (partRoot? name) d := by
  refine Meets.mono ((meets_self (partRoot? name) d).and (partRoot?_looked name d)) ?_ ?_
  · exact fun r d' h => .single (.part h.1)
  · rintro err d' ⟨-, rfl, -⟩
    exact .refl

theorem looking_view {f : Forest → α} : Looking (view f) d := meets_view.2 .refl

theorem looking_targets : Looking targets d := by
  rcases targets_cases d with ⟨l, h⟩ | ⟨fault, details, h⟩ <;>
    simp only [Looking, Meets, h d rfl] <;> exact .refl

theorem looking_rootElement : Looking rootElement d := by
  simp only [Looking, rootElement, meets_bind, meets_get, meets_pure]
  exact .refl

theorem looking_referred {targets : List (String × String)} {base : String}
    {kind : PageKind → String → StoryKind} : ∀ (es : List Element) (seen : List String)
    {d : Document}, Looking (referred targets base kind seen es) d
  | [], _, _ => looking_pure
  | e :: es, seen, d => by
    rw [referred]
    split
    · exact looking_report.bind fun _ _ _ => looking_referred es _
    · dsimp only
      split
      · exact looking_referred es _
      · refine looking_partRoot?.bind fun root? d₁ _ => ?_
        split
        · exact looking_report.bind fun _ _ _ => looking_referred es _
        · exact (looking_referred es _).bind fun _ _ _ => looking_pure

theorem looking_referredBy {base : String} {kind : PageKind → String → StoryKind} :
    Looking (referredBy base kind) d := by
  refine looking_targets.bind fun targets _ _ => looking_rootElement.bind fun root? _ _ => ?_
  cases root? with
  | none => exact looking_pure
  | some root => exact looking_referred _ _

theorem looking_body : Looking body d := by
  refine looking_rootElement.bind fun root? _ _ => ?_
  split
  · exact looking_pure
  · exact looking_pure

theorem looking_notes {part : String} {name : Name} {kind : Option String → StoryKind} :
    Looking (notes part name kind) d := by
  refine looking_partRoot?.bind fun root? _ _ => ?_
  cases root? with
  | none => exact looking_pure
  | some root => exact looking_view.bind fun _ _ _ => looking_pure

theorem looking_stories : Looking stories d :=
  looking_referredBy.bind fun _ _ _ => looking_body.bind fun _ _ _ =>
    looking_referredBy.bind fun _ _ _ => looking_notes.bind fun _ _ _ =>
      looking_notes.bind fun _ _ _ => looking_pure

theorem looking_text : Looking text d := looking_stories.bind fun _ _ _ => looking_view

end Looking

end Document

end MailMerge
