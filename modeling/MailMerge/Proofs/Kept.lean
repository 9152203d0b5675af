import MailMerge.Proofs.Alike
import MailMerge.Proofs.Members
import MailMerge.Proofs.Signposts

/-!
# What is kept of a package

The relationships of a document are those that the tree of their part gives (`entries`), although
they are read from the package each time. Together with the rest of what is kept of the package that
a document has been opened from (`Kept`), this holds after everything that is done to the document:
looking at it (`Kept.looks`), working on its trees (`Kept.worked`) and writing its parts back
(`Kept.written`).
-/

namespace MailMerge

open Xml Word

namespace Word

/-- What an element gives as a relationship: its name and its target, told by its key. -/
def relation? (k : Key) : Option (String × String) :=
  let given (base : String) : String :=
    ((k.attributes.find? fun a => a.1 = ⟨"", base⟩).map (·.2)).getD ""
  if given "Id" ≠ "" ∧ given "Target" ≠ "" ∧ given "TargetMode" ≠ "External" then
    some (given "Id", given "Target") else none

/-- The relationships that are given below a root, the last one first. -/
def entries (root : Element) : List (String × String) :=
  (((leadingOf (childKeys root.inner)).filter (·.name = Names.relationship)).filterMap
    relation?).reverse

theorem find?_attributes {tag : Tag} (h : tag.name ≠ Names.text) (base : String) :
    ((key tag).attributes.find? fun a => a.1 = ⟨"", base⟩).map (·.2) =
      tag.attribute? ⟨"", base⟩ := by
  rw [key, if_neg h, List.find?_map, Option.map_map]
  rfl

theorem filter_leadingOf {name : Name} (h : name ∈ Names.leading) (c : Content) :
    (leadingOf (childKeys c)).filter (·.name = name) =
      (c.children.filter (·.tag.name = name)).map fun e => key e.tag := by
  rw [leadingOf, List.filter_filter, childKeys, List.filter_map]
  refine congrArg _ (List.filter_congr fun e _ => ?_)
  simp only [Function.comp_apply, key_name, Bool.and_eq_decide, decide_eq_true_eq]
  by_cases he : e.tag.name = name
  · simp [he, h]
  · simp [he]

theorem entries_eq (root : Element) : entries root =
    ((root.inner.children.filter (·.tag.name = Names.relationship)).filterMap fun e =>
      relation? (key e.tag)).reverse := by
  rw [entries, filter_leadingOf (by simp [Names.leading]), List.filterMap_map]
  rfl

theorem entries_plain (root : Element) : entries root.plain = entries root := by
  rw [entries_eq, entries_eq, Element.plain_inner, Content.children_plain, List.filter_map,
    List.filterMap_map]
  rfl

theorem isSome_child?_body (c : Content) :
    (c.child? Names.body).isSome = (leadingOf (childKeys c)).any (·.name = Names.body) := by
  rw [leadingOf, List.any_filter, childKeys, List.any_map, Content.child?, List.isSome_find?]
  refine congrArg _ (funext fun e => ?_)
  by_cases he : e.tag.name = Names.body <;> simp [he, Names.leading]

end Word

namespace Document

variable {d d' : Document} {p p₀ : Package}

/-- The relationships are those that are given in their part. -/
theorem outcome_targets (h : d.package? = some p) : outcome targets d =
    (p.tree? PartName.relationships).map fun t => (t.map entries).getD [] := by
  simp only [outcome, targets, bind, EStateM.bind, package_of_some h, Package.tree?]
  cases p.document? PartName.relationships 0 with
  | error err => rfl
  | ok found =>
    cases found with
    | none => rfl
    | some x =>
      simp only [Except.map, Option.map_some, Option.getD_some]
      rw [entries_plain, entries_eq]
      refine congrArg (fun l => Except.ok (List.reverse l)) (List.filterMap_congr fun e he => ?_)
      have hn : e.tag.name ≠ Names.text := by
        have : e.tag.name = Names.relationship := by simpa using (List.mem_filter.1 he).2
        rw [this]
        decide
      simp only [relation?, find?_attributes hn]

theorem rootOf_eq_none {name : String} :
    d.rootOf name = none ↔ ∀ part ∈ d.parts, part.name ≠ name := by
  simp [rootOf]

/-- A document has each part once, and only those of its package. -/
structure Indexed (names : List String) (d : Document) : Prop where
  unique : (d.parts.map (·.name)).Nodup
  members : ∀ part ∈ d.parts, part.name ∈ names

theorem Looked.indexed {name : String} {r : Option Nat} (h : Looked d name r d')
    (hp : d.package? = some p) (hi : Indexed p.names d) : Indexed p.names d' := by
  cases h with
  | known | missing => exact hi
  | @read q x next h hq hx =>
    obtain rfl := Option.some.inj (hp.symm.trans hq)
    have hname : name ∈ p.names := by
      by_contra hn
      simp [Package.document?, Package.bytes?_eq_none.2 hn] at hx
    constructor
    · simp only [List.map_append, List.map_cons, List.map_nil]
      refine List.nodup_append.2 ⟨hi.unique, by simp, ?_⟩
      rintro _ hm _ hn rfl
      obtain ⟨part, hpart, he⟩ := List.mem_map.1 hm
      exact rootOf_eq_none.1 h part hpart (he.trans (List.mem_singleton.1 hn))
    · intro part hpart
      rcases List.mem_append.1 hpart with hpart | hpart
      · exact hi.members part hpart
      · obtain rfl := List.mem_singleton.1 hpart
        exact hname

theorem Look.indexed (h : Look d d') (hp : d.package? = some p) (hi : Indexed p.names d) :
    Indexed p.names d' := by
  cases h with
  | report h =>
    obtain rfl := (EStateM.Result.ok.inj h).2
    exact ⟨hi.unique, hi.members⟩
  | part h => exact ((partRoot?_looked _ _).of_ok h).indexed hp hi

/-- What is kept of the package that a document has been opened from. -/
structure Kept (p₀ : Package) (d : Document) : Prop extends d.Opened where
  package : ∃ p, d.package? = some p ∧ p.Sane ∧ p.names = p₀.names ∧
    ∀ name, d.rootOf name = none → p.bytes? name = p₀.bytes? name
  indexed : Indexed p₀.names d
  leads : outcome targets d = (d.tree? PartName.relationships).map fun t => (t.map entries).getD []
  body : ∃ t, d.tree? PartName.main = .ok (some t) ∧ (t.inner.child? Names.body).isSome = true

/-! ## Looking -/

theorem Look.kept (h : Look d d') (hk : Kept p₀ d) : Kept p₀ d' := by
  have hl : Looks d d' := .single h
  obtain ⟨p, hp, hsane, hnames, hbytes⟩ := hk.package
  obtain ⟨t, ht, hb⟩ := hk.body
  refine ⟨hk.reads hl.reads, ⟨p, hl.reads.package.trans hp, hsane, hnames, fun name hn => ?_⟩, ?_,
    ?_, t, (hl.tree? hk.toFiled _).trans ht, hb⟩
  · refine hbytes name (Option.eq_none_iff_forall_ne_some.2 fun r hr => ?_)
    cases hn.symm.trans (hl.reads.rootOf hr)
  · exact hnames ▸ h.indexed hp (hnames ▸ hk.indexed)
  · rw [outcome_targets_of_package hl.reads.package, hk.leads, hl.tree? hk.toFiled]

theorem Kept.looks (hk : Kept p₀ d) (h : Looks d d') : Kept p₀ d' := by
  induction h with
  | refl => exact hk
  | tail _ h ih => exact h.kept ih

/-! ## Working on the trees -/

/-- The root of a part that has been read is still there, and so is what leads on from it. -/
theorem Filed.root_worked (hd : d.Filed) (h : Worked d.forest d'.forest) {name : String} {r : Nat}
    (hr : d.rootOf name = some r) : ∃ x x', d.forest.element? r = some x ∧
      d'.forest.element? r = some x' ∧
        leadingOf (childKeys x'.inner) = leadingOf (childKeys x.inner) := by
  obtain ⟨x, hx, he⟩ := hd.root? hr
  obtain ⟨-, rfl⟩ := hd.numbered.element?_eq_some.1 he
  have hq := h.sequel hd.numbered
  obtain ⟨x', hx', hk⟩ := List.mem_map.1 (hq.roots _ (List.mem_map_of_mem hx))
  refine ⟨x, x', he, ?_, (h.signposts hd.numbered).root hd.numbered hq.move.numbered hx hx' hk⟩
  have he' := hq.move.numbered.element?_of_has (.inl (Content.children_subset _ x' hx'))
  rwa [show x'.tag.id = x.tag.id from congrArg Key.id hk] at he'

theorem Kept.worked (hk : Kept p₀ d) (hp : SameParts d d') (h : Worked d.forest d'.forest) :
    Kept p₀ d' := by
  have hq := h.sequel hk.numbered
  unfold SameParts at hp
  have hrootOf : ∀ name, d'.rootOf name = d.rootOf name := fun name => by rw [hp]; rfl
  have hpackage : d'.package? = d.package? := by rw [hp]
  have hparts : d'.parts = d.parts := by rw [hp]
  have hrt : d'.root = d.root := by rw [hp]
  obtain ⟨p, hpack, hsane, hnames, hbytes⟩ := hk.package
  refine ⟨⟨hk.toSound.sequel hq hrt hparts, ?_, ?_⟩,
    ⟨p, hpackage.trans hpack, hsane, hnames, fun name hn => hbytes name (hrootOf name ▸ hn)⟩,
    ⟨hparts ▸ hk.indexed.unique, hparts ▸ hk.indexed.members⟩, ?_, ?_⟩
  · rw [hrootOf, hrt, hk.main]
  · rw [Distinct, hparts]
    exact hk.distinct
  · rw [outcome_targets_of_package hpackage, hk.leads]
    cases hr : d.rootOf PartName.relationships with
    | none => simp only [tree?, hr, hrootOf, hpackage]
    | some r =>
      obtain ⟨x, x', hx, hx', hl⟩ := hk.toFiled.root_worked h hr
      have hentries : entries x' = entries x := by rw [entries, hl, entries]
      rw [tree?_of_rootOf hr, tree?_of_rootOf ((hrootOf _).trans hr), hx, hx']
      simp only [Except.map, Option.map_some, entries_plain, hentries]
  · obtain ⟨x, x', hx, hx', hl⟩ := hk.toFiled.root_worked h hk.main
    obtain ⟨t, ht, hb⟩ := hk.body
    rw [tree?_of_rootOf hk.main, hx] at ht
    obtain rfl := Option.some.inj (Except.ok.inj ht)
    refine ⟨x'.plain, by rw [tree?_of_rootOf ((hrootOf _).trans hk.main), hx']; rfl, ?_⟩
    rw [Element.plain_inner, Content.child?_plain, Option.isSome_map, isSome_child?_body] at hb ⊢
    rw [hl, hb]

theorem Kept.handled (hk : Kept p₀ d) (h : Handled d d') : Kept p₀ d' :=
  let ⟨_, hl, hp, hw⟩ := h
  (hk.looks hl).worked hp hw

/-! ## Writing the parts -/

/-- Whether what is written of a document is read as the trees that it has. -/
def ReadsBack (d : Document) : Prop := ∀ part ∈ d.parts, ∀ x, part.document? d.forest = some x →
  (Xml.Document.read? (Text.toUtf8 x.write) 0).map (·.1.root.plain) = some x.root.plain

theorem Kept.tree?_written (hk : Kept p₀ d) (hp : d.package? = some p) (hb : d.ReadsBack)
    (name : String) : (writeParts d.forest d.parts p).tree? name = d.tree? name := by
  obtain ⟨q, hq, -, hnames, -⟩ := hk.package
  obtain rfl := Option.some.inj (hp.symm.trans hq)
  cases hr : d.rootOf name with
  | none =>
    have hbytes := bytes?_writeParts_of_notMem (f := d.forest) (p := p) (rootOf_eq_none.1 hr)
    simp only [tree?, hr, hp, Package.tree?, Package.document?_congr hbytes]
  | some r =>
    obtain ⟨part, hfind, rfl⟩ := Option.map_eq_some_iff.1 hr
    have hpart := List.mem_of_find?_eq_some hfind
    obtain rfl : part.name = name := by simpa using List.find?_some hfind
    obtain ⟨x, -, hx⟩ := hk.toFiled.root? hr
    have hdoc : part.document? d.forest = some ⟨part.frame, x⟩ := by simp [Part.document?, hx]
    have hbytes := bytes?_writeParts_of_mem hdoc hk.indexed.unique
      (hnames ▸ hk.indexed.members) hpart
    obtain ⟨y, hy, hyx⟩ := Option.map_eq_some_iff.1 (hb part hpart _ hdoc)
    rw [tree?_of_rootOf hr, hx, Package.tree?, Package.document?, hbytes]
    simp only [hy, Except.map, Option.map_some, hyx]

theorem tree?_of_package (name : String) : ({ d with package? := some p } : Document).tree? name =
    match d.rootOf name with
    | some r => .ok ((d.forest.element? r).map Element.plain)
    | none => p.tree? name := rfl

theorem Kept.written (hk : Kept p₀ d) (hp : d.package? = some p) (hb : d.ReadsBack) :
    Kept p₀ { d with package? := some (writeParts d.forest d.parts p) } := by
  have htree := hk.tree?_written hp hb
  obtain ⟨q, hq, hsane, hnames, hbytes⟩ := hk.package
  obtain rfl := Option.some.inj (hp.symm.trans hq)
  have hmem : ∀ part ∈ d.parts, part.name ∈ p.names := hnames ▸ hk.indexed.members
  have same : ∀ name, ({ d with package? := some (writeParts d.forest d.parts p) } :
      Document).tree? name = d.tree? name := by
    intro name
    rw [tree?_of_package]
    cases hr : d.rootOf name with
    | none => exact htree name
    | some r => exact (tree?_of_rootOf hr).symm
  refine ⟨⟨⟨⟨hk.numbered, hk.parts⟩, hk.root⟩, hk.main, hk.distinct⟩,
    ⟨_, rfl, sane_writeParts hmem hsane, (names_writeParts hmem).trans hnames, fun name hn => ?_⟩,
    ⟨hk.indexed.unique, hk.indexed.members⟩, ?_, ?_⟩
  · exact (bytes?_writeParts_of_notMem (rootOf_eq_none.1 hn)).trans (hbytes name hn)
  · rw [outcome_targets rfl, htree, same]
  · obtain ⟨t, ht, hb⟩ := hk.body
    exact ⟨t, (same _).trans ht, hb⟩

end Document

end MailMerge
