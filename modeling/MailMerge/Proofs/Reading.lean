import MailMerge.Proofs.Faces
import MailMerge.Proofs.Forests
import MailMerge.Proofs.Works

/-!
# Reading parts

The parts of a document are read when they are looked at. Reading a part puts its root behind the
other ones, with numbers that have not been given before, and changes nothing else (`Reads`). In the
documents that come about in this way, and by edits, no number is used twice, and every part that
has been read has its root among the attached trees (`Document.Sound`).
-/

namespace MailMerge

open Xml

/-- A root with new numbers is put behind the others. -/
def Planted (f f' : Forest) : Prop :=
  ∃ (root : Element) (next : Nat), f' = f.plant root next ∧ f.next ≤ next ∧
    (Content.element root.tag root.inner .nil).ids.Nodup ∧
      ∀ i ∈ (Content.element root.tag root.inner .nil).ids, f.next ≤ i ∧ i < next

theorem Planted.numbered {f f' : Forest} (h : Planted f f') (hf : f.Numbered) : f'.Numbered := by
  obtain ⟨root, next, rfl, hle, hnd, hids⟩ := h
  have hnew : ∀ i ∈ (Content.element root.tag root.inner .nil).ids,
      i ∉ f.attached.ids ∧ i ∉ f.detached.ids := fun i hi => by
    have := (hids i hi).1
    refine ⟨fun hm => ?_, fun hm => ?_⟩
    · have := hf.lt i (.inl hm)
      omega
    · have := hf.lt i (.inr hm)
      omega
  refine ⟨?_, hf.detached, fun i hi => ?_, fun i hi => ?_⟩
  · simp only [Forest.plant, Content.ids_append]
    exact List.nodup_append.2 ⟨hf.attached, hnd, fun i hi j hj e => (hnew j hj).1 (e ▸ hi)⟩
  · simp only [Forest.plant, Content.ids_append, List.mem_append] at hi
    exact hi.elim (hf.apart i) fun hi => (hnew i hi).2
  · simp only [Forest.plant, Content.ids_append, List.mem_append] at hi ⊢
    rcases hi with (hi | hi) | hi
    · exact Nat.lt_of_lt_of_le (hf.lt i (.inl hi)) hle
    · exact (hids i hi).2
    · exact Nat.lt_of_lt_of_le (hf.lt i (.inr hi)) hle

theorem numbered_empty : Forest.empty.Numbered :=
  ⟨.nil, .nil, by simp [Forest.empty, Content.ids, Content.elements],
    by simp [Forest.empty, Content.ids, Content.elements]⟩

theorem Planted.children {f f' : Forest} (h : Planted f f') :
    ∀ e ∈ f.attached.children, e ∈ f'.attached.children := by
  obtain ⟨root, next, rfl, -⟩ := h
  intro e he
  simp [Forest.plant, he]

theorem Planted.has {f f' : Forest} (h : Planted f f') {e : Element} (he : f.Has e) : f'.Has e := by
  obtain ⟨root, next, rfl, -⟩ := h
  exact he.imp (fun he => by simp [Forest.plant, he]) id

namespace Document

/-- The number of the root of a part, if the part has been read. -/
def rootOf (d : Document) (name : String) : Option Nat :=
  (d.parts.find? fun part => part.name = name).map (·.root)

/-- The trees of a document have different numbers, and the parts that have been read are there. -/
structure Filed (d : Document) : Prop where
  numbered : d.forest.Numbered
  parts : ∀ part ∈ d.parts, ∃ e ∈ d.forest.attached.children, e.tag.id = part.root

/-- The parts that have been read have different roots. -/
def Distinct (d : Document) : Prop := (d.parts.map (·.root)).Nodup

/-- What holds of a document that has been opened, whatever has been done with it since. -/
structure Sound (d : Document) : Prop extends Filed d where
  root : ∃ e ∈ d.forest.attached.children, e.tag.id = d.root

/-- Parts of a document have been read, and what has been reported may differ. -/
structure Reads (d d' : Document) : Prop where
  package : d'.package? = d.package?
  root : d'.root = d.root
  parts : d.parts <+: d'.parts
  real : ∀ part ∈ d'.parts, part ∈ d.parts ∨
    ∃ p, d.package? = some p ∧ p.bytes? part.name ≠ none
  forest : Relation.ReflTransGen Planted d.forest d'.forest
  filed : d.Filed → d'.Filed
  distinct : d.Filed → d.Distinct → d'.Distinct

namespace Reads

variable {d d' d'' : Document}

theorem refl (d : Document) : Reads d d :=
  ⟨rfl, rfl, List.prefix_rfl, fun _ h => .inl h, .refl, id, fun _ => id⟩

theorem trans (h : Reads d d') (h' : Reads d' d'') : Reads d d'' where
  package := h'.package.trans h.package
  root := h'.root.trans h.root
  parts := h.parts.trans h'.parts
  real part hp := (h'.real part hp).elim (h.real part)
    fun ⟨p, hpack, hb⟩ => .inr ⟨p, h.package.symm.trans hpack, hb⟩
  forest := h.forest.trans h'.forest
  filed hs := h'.filed (h.filed hs)
  distinct hs hd := h'.distinct (h.filed hs) (h.distinct hs hd)

theorem rootOf (h : Reads d d') {name : String} {root : Nat} (hr : d.rootOf name = some root) :
    d'.rootOf name = some root := by
  obtain ⟨more, hm⟩ := h.parts
  obtain ⟨part, hp, rfl⟩ := Option.map_eq_some_iff.1 hr
  rw [Document.rootOf, ← hm, List.find?_append, hp]
  rfl

theorem has (h : Reads d d') {e : Element} (he : d.forest.Has e) : d'.forest.Has e := by
  have hf := h.forest
  generalize d'.forest = f' at hf
  induction hf with
  | refl => exact he
  | tail _ hp ih => exact hp.has ih

theorem children (h : Reads d d') {e : Element} (he : e ∈ d.forest.attached.children) :
    e ∈ d'.forest.attached.children := by
  have hf := h.forest
  generalize d'.forest = f' at hf
  induction hf with
  | refl => exact he
  | tail _ hp ih => exact hp.children e ih

theorem sound (h : Reads d d') (hs : d.Sound) : d'.Sound where
  toFiled := h.filed hs.toFiled
  root := by
    obtain ⟨e, he, hr⟩ := hs.root
    exact ⟨e, h.children he, hr.trans h.root.symm⟩

theorem element? (h : Reads d d') (hs : d.Sound) {i : Nat} {e : Element}
    (he : d.forest.element? i = some e) : d'.forest.element? i = some e := by
  obtain ⟨hhas, hi⟩ := hs.numbered.element?_eq_some.1 he
  exact (h.sound hs).numbered.element?_eq_some.2 ⟨h.has hhas, hi⟩

end Reads

theorem Sound.root? {d : Document} (h : d.Sound) : ∃ e ∈ d.forest.attached.children,
    d.forest.element? d.root = some e := by
  obtain ⟨e, he, hr⟩ := h.root
  exact ⟨e, he, h.numbered.element?_eq_some.2 ⟨.inl (Content.children_subset _ e he), hr⟩⟩

theorem mem_parts_of_rootOf {d : Document} {name : String} {root : Nat}
    (h : d.rootOf name = some root) : ∃ part ∈ d.parts, part.root = root := by
  obtain ⟨part, hp, rfl⟩ := Option.map_eq_some_iff.1 h
  exact ⟨part, List.mem_of_find?_eq_some hp, rfl⟩

variable {d : Document}

theorem read?_spec {bytes : Text.Bytes} {next m : Nat} {x : Xml.Document}
    (h : Xml.Document.read? bytes next = some (x, m)) :
    x.root.tag.id = next ∧ next ≤ m ∧ (Content.element x.root.tag x.root.inner .nil).ids.Nodup ∧
      ∀ i ∈ (Content.element x.root.tag x.root.inner .nil).ids, next ≤ i ∧ i < m := by
  simp only [Xml.Document.read?, Option.bind_eq_bind, Option.bind_eq_some_iff, Option.pure_def,
    Option.some.injEq] at h
  obtain ⟨cs, -, ⟨y, s⟩, -, h⟩ := h
  simp only [Element.renumber, Prod.mk.injEq] at h
  obtain ⟨rfl, rfl⟩ := h
  set c : Content := .element y.root.tag y.root.inner .nil with hc
  have hren : (c.renumber next).1 = .element { y.root.tag with id := next }
      (y.root.inner.renumber (next + 1)).1 .nil := rfl
  have hnext : (c.renumber next).2 = (y.root.inner.renumber (next + 1)).2 := rfl
  refine ⟨rfl, ?_, ?_, ?_⟩
  · rw [← hnext, Content.renumber_next]
    omega
  · exact hren ▸ Content.nodup_renumber c next
  · intro i hi
    rw [← hren] at hi
    exact hnext ▸ Content.mem_ids_renumber.1 hi

theorem document?_spec (p : Package) (name : String) (next : Nat) :
    match p.document? name next with
    | .ok none => p.bytes? name = none
    | .ok (some (x, m)) => x.root.tag.id = next ∧ next ≤ m ∧
        (Content.element x.root.tag x.root.inner .nil).ids.Nodup ∧
          ∀ i ∈ (Content.element x.root.tag x.root.inner .nil).ids, next ≤ i ∧ i < m
    | .error err => err = .document (.notXml name) [] := by
  unfold Package.document?
  cases hb : p.bytes? name with
  | none => rfl
  | some bytes =>
    cases hr : Xml.Document.read? bytes next with
    | none => simp only [hr]
    | some found =>
      simp only [hr]
      exact read?_spec hr

/-- Nothing is left to be read of a part: it has been read, or there is none. -/
def Settled (d : Document) (name : String) : Prop :=
  (∃ root, d.rootOf name = some root) ∨ ∃ p, d.package? = some p ∧ p.bytes? name = none

theorem Settled.reads {d' : Document} {name : String} (h : Settled d name) (hr : Reads d d') :
    Settled d' name :=
  h.imp (fun ⟨root, h⟩ => ⟨root, hr.rootOf h⟩) fun ⟨p, h, hb⟩ => ⟨p, hr.package.trans h, hb⟩

theorem Settled.rootOf {d' : Document} {name : String} {root : Nat} (h : Settled d name)
    (hr : Reads d d') (hroot : d'.rootOf name = some root) : d.rootOf name = some root := by
  rcases h with ⟨root', h⟩ | ⟨p, hp, hb⟩
  · rw [h, ← hroot, hr.rootOf h]
  · obtain ⟨part, hfind, rfl⟩ := Option.map_eq_some_iff.1 hroot
    have hname : part.name = name := by simpa using List.find?_some hfind
    obtain ⟨more, hmore⟩ := hr.parts
    rw [← hmore, List.find?_append] at hfind
    rcases Option.or_eq_some_iff.1 hfind with hfind | ⟨hn, hfind⟩
    · simp [Document.rootOf, hfind]
    · rcases hr.real part (hmore ▸ List.mem_append_right _ (List.mem_of_find?_eq_some hfind)) with
        hold | ⟨p', hp', hb'⟩
      · exact absurd hname (by simpa using List.find?_eq_none.1 hn part hold)
      · rw [hname, Option.some.inj (hp'.symm.trans hp)] at hb'
        exact absurd hb hb'

/-- Work that reads parts. It fails only for what is wrong with the package, and if there is nothing
left to be read, as `settled` says, it does not fail and reads nothing. -/
abbrev Reading {α : Type} (x : Work α) (d : Document) (settled : Prop)
    (good : α → Document → Prop) : Prop :=
  Meets x d
    (fun a d' => Reads d d' ∧ (settled → d'.forest = d.forest ∧ d'.parts = d.parts) ∧ good a d')
    fun err d' => Reads d d' ∧ (∃ fault details, err = .document fault details) ∧ ¬settled

section Reading

variable {α β : Type} {x : Work α} {settled settled' : Prop} {good good' : α → Document → Prop}

theorem Reading.mono (h : Reading x d settled good) (hs : settled' → settled)
    (hg : ∀ a d', Reads d d' → good a d' → good' a d') : Reading x d settled' good' :=
  Meets.mono h (fun a d' ⟨h₁, h₂, h₃⟩ => ⟨h₁, fun h => h₂ (hs h), hg a d' h₁ h₃⟩)
    fun _ _ ⟨h₁, h₂, h₃⟩ => ⟨h₁, h₂, fun h => h₃ (hs h)⟩

theorem Reading.bind {g : α → Work β} {good' : β → Document → Prop}
    (h : Reading x d settled good)
    (hg : ∀ a d', Reads d d' → good a d' → Reading (g a) d' settled good') :
    Reading (x >>= g) d settled good' := by
  rw [Reading, meets_bind]
  refine Meets.mono h (fun a d' ⟨hd, hs, ha⟩ => ?_) fun _ _ h => h
  refine Meets.mono (hg a d' hd ha) (fun _ _ ⟨h, hs', hb⟩ => ⟨hd.trans h, fun hset => ?_, hb⟩)
    fun _ _ ⟨h, he, hs'⟩ => ⟨hd.trans h, he, hs'⟩
  exact ⟨(hs' hset).1.trans (hs hset).1, (hs' hset).2.trans (hs hset).2⟩

theorem reading_pure {a : α} (h : good a d) : Reading (pure a) d settled good :=
  ⟨.refl d, fun _ => ⟨rfl, rfl⟩, h⟩

theorem reading_report {level : Log.Level} {origin : Log.Origin} {message : String} :
    Reading (report level origin message) d settled fun _ _ => True :=
  ⟨⟨rfl, rfl, List.prefix_rfl, fun _ h => .inl h, .refl, fun h => ⟨h.1, h.2⟩, fun _ h => h⟩,
    fun _ => ⟨rfl, rfl⟩, trivial⟩

end Reading

theorem reading_package : Reading package d (∃ p, d.package? = some p)
    fun p d' => d' = d ∧ d.package? = some p := by
  simp only [Reading, package, meets_bind, meets_get]
  split
  · next p hp => exact ⟨.refl d, fun _ => ⟨rfl, rfl⟩, rfl, hp⟩
  · next hn => exact ⟨.refl d, ⟨_, _, rfl⟩, by simp [hn]⟩

/-- A part of the package is read: its root is planted. -/
theorem reads_part {p : Package} {name : String} {x : Xml.Document} {m : Nat}
    (hp : d.package? = some p) (hb : p.bytes? name ≠ none) (hroot : x.root.tag.id = d.forest.next)
    (hpl : Planted d.forest (d.forest.plant x.root m)) :
    Reads d { d with
      parts := d.parts ++ [⟨name, x.root.tag.id, x.frame⟩]
      forest := d.forest.plant x.root m } where
  package := rfl
  root := rfl
  parts := ⟨_, rfl⟩
  real part hpart := by
    rcases List.mem_append.1 hpart with hpart | hpart
    · exact .inl hpart
    · obtain rfl := List.mem_singleton.1 hpart
      exact .inr ⟨p, hp, hb⟩
  forest := .single hpl
  filed hs := by
    refine ⟨hpl.numbered hs.numbered, fun part hpart => ?_⟩
    rcases List.mem_append.1 hpart with hpart | hpart
    · obtain ⟨e, he, hr⟩ := hs.parts part hpart
      exact ⟨e, hpl.children e he, hr⟩
    · obtain rfl := List.mem_singleton.1 hpart
      exact ⟨x.root, by simp [Forest.plant, Content.children], rfl⟩
  distinct hs hdis := by
    -- The new root has a number that no other one has had before.
    rw [Distinct, List.map_append, List.nodup_append]
    refine ⟨hdis, by simp, ?_⟩
    rintro i hi _ hnew rfl
    obtain ⟨part, hpart, rfl⟩ := List.mem_map.1 hi
    obtain ⟨e, he, hr⟩ := hs.parts part hpart
    have := hs.numbered.has_lt (.inl (Content.children_subset _ e he))
    simp only [List.map_cons, List.map_nil, List.mem_singleton] at hnew
    omega

/-- A part that is looked at has been read then, or there is none. -/
theorem reading_partRoot? {name : String} : Reading (partRoot? name) d (Settled d name)
    fun root? d' => root? = d'.rootOf name ∧ Settled d' name := by
  simp only [Reading, partRoot?, meets_bind, meets_get]
  split
  · next part hpart =>
    have hr : d.rootOf name = some part.root := by simp [rootOf, hpart]
    exact ⟨.refl d, fun _ => ⟨rfl, rfl⟩, hr.symm, .inl ⟨_, hr⟩⟩
  · next hnone =>
    have hr : d.rootOf name = none := by simp [rootOf, hnone]
    rw [meets_bind]
    refine Meets.mono (reading_package (d := d)) ?_ ?_
    swap
    · rintro _ d' ⟨hd, he, hp⟩
      refine ⟨hd, he, fun hs => hp ?_⟩
      rcases hs with ⟨root, hs⟩ | ⟨p, hp, -⟩
      · cases hr.symm.trans hs
      · exact ⟨p, hp⟩
    rintro p d' ⟨-, -, hd, hp⟩
    rw [hd]
    have hdoc := document?_spec p name d.forest.next
    -- A part that has been settled but has no root is no member of the package.
    have settled : Settled d name → p.bytes? name = none := by
      rintro (⟨root, hs⟩ | ⟨p', hp', hb⟩)
      · cases hr.symm.trans hs
      · rwa [Option.some.inj (hp.symm.trans hp')]
    split
    · next he =>
      rw [he] at hdoc
      refine ⟨.refl _, ⟨_, _, hdoc⟩, fun hs => ?_⟩
      simp [Package.document?, settled hs] at he
    · next he =>
      rw [he] at hdoc
      exact ⟨.refl _, fun _ => ⟨rfl, rfl⟩, hr.symm, .inr ⟨p, hp, hdoc⟩⟩
    · next x m he =>
      rw [he] at hdoc
      obtain ⟨hid, hle, hnd, hids⟩ := hdoc
      have hb : p.bytes? name ≠ none := fun hb => by simp [Package.document?, hb] at he
      have hroot : Document.rootOf { d with
          parts := d.parts ++ [⟨name, x.root.tag.id, x.frame⟩]
          forest := d.forest.plant x.root m } name = some x.root.tag.id := by
        rw [rootOf, List.find?_append, hnone]
        simp
      simp only [meets_bind, meets_set, meets_pure]
      exact ⟨reads_part hp hb hid ⟨x.root, m, rfl, hle, hnd, hids⟩,
        fun hs => absurd (settled hs) hb, hroot.symm, .inl ⟨_, hroot⟩⟩

/-! ## Opening -/

/-- What has been opened is sound. -/
theorem sound_openArchive {path? : Option Files.Path} {source : Archive.Source}
    {bytes : Text.Bytes} : Meets (openArchive source bytes) (unread path?) (fun _ d => d.Sound)
      fun _ _ => True := by
  rw [openArchive]
  split
  · trivial
  · next p _ =>
    simp only [meets_bind, meets_modify, meets_get]
    refine Meets.mono reading_partRoot? ?_ fun _ _ _ => trivial
    rintro root? d ⟨hr, -, hroot, -⟩
    split
    · trivial
    · next root =>
      simp only [meets_bind, meets_modify, meets_view]
      have hfiled : d.Filed := hr.filed ⟨numbered_empty, by simp [unread]⟩
      obtain ⟨part, hp, hpr⟩ := mem_parts_of_rootOf hroot.symm
      obtain ⟨e, he, her⟩ := hfiled.parts part hp
      split
      · exact ⟨⟨hfiled.numbered, hfiled.parts⟩, e, he, her.trans hpr⟩
      · trivial

/-! ## Documents that are written down -/

/-- An element with the given content. -/
def node (name : Name) (nodes : List Node) : Node :=
  .element ⟨Word.newTag name none, .ofList nodes⟩

/-- A run that shows a text. -/
def textRun (text : String) : Node :=
  node Word.Names.run [node Word.Names.text [.text text.toList]]

/-- A document that has no other part than its main one. -/
def ofRoot (root : Element) : Document :=
  let (c, next) := (Content.element root.tag root.inner .nil).renumber 0
  ⟨none, some .empty, 0, [⟨PartName.main, 0, ⟨"1.0", [], none, [], []⟩⟩], ⟨c, .nil, next, []⟩, []⟩

theorem sound_ofRoot (root : Element) : (ofRoot root).Sound := by
  have hroot : ∃ e ∈ (ofRoot root).forest.attached.children, e.tag.id = 0 :=
    ⟨⟨{ root.tag with id := 0 }, (root.inner.renumber 1).1⟩, List.mem_cons_self, rfl⟩
  set c := (Content.element root.tag root.inner .nil).renumber 0 with hc
  have hf : (ofRoot root).forest = ⟨c.1, .nil, c.2, []⟩ := rfl
  refine ⟨⟨hf ▸ ⟨Content.nodup_renumber _ 0, .nil, by simp, ?_⟩, ?_⟩, hroot⟩
  · rintro i (hi | hi)
    · exact (Content.mem_ids_renumber.1 hi).2
    · simp at hi
  · intro part hp
    obtain rfl := List.mem_singleton.1 hp
    exact hroot

/-- A document that has no text outside of its body. -/
def ofBody (nodes : List Node) : Document :=
  ofRoot ⟨Word.newTag (Word.name "document") none, .ofList [node Word.Names.body nodes]⟩

end Document

end MailMerge
