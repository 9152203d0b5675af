import MailMerge.Proofs.Saved

/-!
# Updates of members

A member of the package of an open document can be written (`setPart`), beside everything else that
is done to the document (`Event`). The document has the trees of the parts that it has read beside
their bytes in the package, and it is the trees that are saved. So what is written into a member is
saved just if the document has not read the part before. If it reads the part afterwards, it reads
what has been written (`Following`), and if it does not work on that tree, this is what is saved
(`saved_update`).
-/

namespace MailMerge

open Xml Word

namespace Xml

/-! ## Trees that differ in their numbers -/

namespace Content

theorem write_renumber : ∀ (c : Content) (n : Nat), (c.renumber n).1.write = c.write
  | nil, _ => rfl
  | text _ rest, n => by simp only [renumber, write, write_renumber rest n]
  | markup _ rest, n => by simp only [renumber, write, write_renumber rest n]
  | element tag inner rest, n => by
    have hinner := write_renumber inner (n + 1)
    have hrest := write_renumber rest (inner.renumber (n + 1)).2
    -- An element is written in another way if it has no content.
    cases inner <;> simp_all only [renumber, write] <;> rfl

theorem renumber_renumber : ∀ (c : Content) (n m : Nat), (c.renumber n).1.renumber m = c.renumber m
  | nil, _, _ => rfl
  | text _ rest, n, m => by simp only [renumber, renumber_renumber rest n m]
  | markup _ rest, n, m => by simp only [renumber, renumber_renumber rest n m]
  | element _ inner rest, n, m => by
    simp only [renumber, renumber_renumber inner, renumber_renumber rest]

end Content

namespace Document

/-- The document with the first numbers. -/
def renumbered (x : Document) : Document := { x with root := (x.root.renumber 0).1 }

theorem write_renumbered (x : Document) : x.renumbered.write = x.write := by
  have hroot : (x.root.renumber 0).1.write = x.root.write :=
    Content.write_renumber (.element x.root.tag x.root.inner .nil) 0
  have hname : (x.root.renumber 0).1.tag.name = x.root.tag.name := rfl
  simp only [write, renumbered, hroot, hname]

/-- What is read does not depend on where its numbers start, but for these. -/
theorem read?_renumbered (bytes : Text.Bytes) (n m : Nat) :
    (read? bytes n).map (·.1.renumbered) = (read? bytes m).map (·.1.renumbered) := by
  simp only [read?, Option.bind_eq_bind, Option.map_bind]
  refine congrArg (Option.bind _) (funext fun cs => ?_)
  simp only [Function.comp_apply, Option.map_bind]
  refine congrArg (Option.bind _) (funext fun x => ?_)
  simp [renumbered, Element.renumber, Content.renumber_renumber]

theorem read?_root {bytes : Text.Bytes} {y : Document} {n m : Nat}
    (hy : read? bytes n = some (y, m)) :
    (read? bytes 0).map (·.1.renumbered.root) = some y.renumbered.root := by
  have h := congrArg (Option.map root) (read?_renumbered bytes 0 n)
  rwa [hy, Option.map_map] at h

/-- Whether a document is written again as it is, when it has been written and read. -/
def Stable (x : Document) : Prop :=
  (read? (Text.toUtf8 x.write) 0).map (·.1.write) = some x.write

instance (x : Document) : Decidable x.Stable :=
  decidable_of_iff ((read? (x.write.flatMap String.utf8EncodeChar) 0).map (·.1.write) =
    some x.write) (by rw [Stable, Text.toUtf8_eq])

theorem Stable.write {x y : Document} {n m : Nat} (h : x.Stable)
    (hy : read? (Text.toUtf8 x.write) n = some (y, m)) : y.write = x.write := by
  have hread := read?_renumbered (Text.toUtf8 x.write) n 0
  obtain ⟨⟨z, k⟩, hz, hw⟩ := Option.map_eq_some_iff.1 h
  rw [hy, hz] at hread
  have hyz : y.renumbered = z.renumbered := Option.some.inj hread
  rw [← write_renumbered y, hyz, write_renumbered z, hw]

end Document

end Xml

theorem Package.document?_eq_some {p : Package} {name : String} {x : Xml.Document} {n m : Nat} :
    p.document? name n = .ok (some (x, m)) ↔
      ∃ bytes, p.bytes? name = some bytes ∧ Xml.Document.read? bytes n = some (x, m) := by
  rw [document?]
  cases p.bytes? name with
  | none => simp
  | some bytes => cases hread : Xml.Document.read? bytes n <;> simp [hread]

namespace Document

variable {d d' : Document} {p : Package} {path? : Option Files.Path} {source : Archive.Source}
  {bytes : Text.Bytes} {name : String} {free : String → Prop}

/-! ## What is done to a document -/

/-- A name that a member of an archive can have. -/
def Named (name : String) : Prop :=
  name ≠ "" ∧ '\x00' ∉ name.toList ∧ (Text.toUtf8 name.toList).length ≤ Archive.maxNameSize

instance : DecidablePred Named := fun _ => inferInstanceAs (Decidable (_ ∧ _))

theorem Named.nameBytes (h : Named name) : Archive.nameBytes name = Text.toUtf8 name.toList := by
  have hcut : name.toList.takeWhile (· ≠ '\x00') = name.toList :=
    List.takeWhile_eq_self_iff.2 fun c hc => by
      simpa using fun he : c = '\x00' => h.2.1 (he ▸ hc)
  rw [Archive.nameBytes, Archive.upToNull, hcut, String.ofList_toList]

/-- What is done to an open document: it is listed, worked on, merged by a plan, or saved, or a
member of its package is written that is free for that. -/
inductive Event (free : String → Prop) (d d' : Document) : Prop
  | list {x : Work (List Story)} (hx : x ∈ listings) (h : After x d d')
  | text (h : After text d d')
  | operate {o : Operation} (ha : o.Applies d.forest) (h : o.Gives d d')
  | apply {plan : List Substitution} {stats : Stats}
      (hp : ∀ s ∈ plan, NamesParagraph s.tag.paragraph d.forest)
      (h : After (Merge.apply plan stats) d d')
  | save {files : Files.Tree} {given : Option Points} (h : After (save files given) d d')
  | saveBytes (h : After saveBytes d d')
  | set {name : String} {x : Xml.Document} (hn : free name) (h : After (setPart name x) d d')

abbrev Events (free : String → Prop) : Document → Document → Prop :=
  Relation.ReflTransGen (Event free)

/-- What becomes of a document: parts are read and trees are worked on, all parts that have been
read are written, or one member is. -/
inductive Effect (free : String → Prop) (d d' : Document) : Prop
  | handled (h : Handled d d')
  | written {p : Package} (hp : d.package? = some p)
      (h : d' = { d with package? := some (writeParts d.forest d.parts p), log := d'.log })
  | put {p : Package} {name : String} {x : Xml.Document} (hn : free name)
      (hp : d.package? = some p) (h : d' = { d with package? := some (p.putDocument name x) })

theorem Looks.handled (h : Looks d d') : Handled d d' := ⟨d', h, .refl d', .edits .refl⟩

theorem setPart_eq (hp : d.package? = some p) (name : String) (x : Xml.Document) :
    setPart name x d = .ok () { d with package? := some (p.putDocument name x) } := by
  simp only [setPart, bind, EStateM.bind, package_of_some hp]
  rfl

theorem setPart_effect {x : Xml.Document} (hp : d.package? = some p) (hn : free name) :
    Meets (setPart name x) d (fun _ => Effect free d) fun _ => Effect free d :=
  (meets_of_ok (setPart_eq hp name x)).2 (.put hn hp rfl)

theorem saveBytes_effect (hp : d.package? = some p) :
    Meets saveBytes d (fun _ => Effect free d) fun _ => Effect free d := by
  refine (saveBytes_writes hp).mono ?_ ?_
  · rintro _ _ rfl
    exact .written hp rfl
  · rintro _ _ rfl
    exact .written hp rfl

theorem save_effect {files : Files.Tree} {given : Option Points} (hp : d.package? = some p) :
    Meets (save files given) d (fun _ => Effect free d) fun _ => Effect free d := by
  simp only [save, meets_bind, meets_get]
  split
  · exact .handled (Looks.handled .refl)
  · rw [meets_bind]
    refine (saveBytes_writes hp).mono ?_ ?_
    · rintro _ _ rfl
      split
      · exact .written hp rfl
      · exact .written hp rfl
    · rintro _ _ rfl
      exact .written hp rfl

/-! ## Open documents -/

/-- A document that has been opened and not closed. -/
structure Open (d : Document) : Prop extends d.Sound where
  package : ∃ p, d.package? = some p ∧ p.Writable ∧ Indexed p.names d

theorem Event.effect (h : Event free d d') (hd : d.Open) : Effect free d d' := by
  obtain ⟨p, hp, -⟩ := hd.package
  cases h with
  | list hx h =>
    exact .handled (h.meets ((looking_of_mem_listings hx).mono (fun _ _ => Looks.handled)
      fun _ _ => Looks.handled))
  | text h =>
    exact .handled (h.meets (looking_text.mono (fun _ _ => Looks.handled) fun _ _ => Looks.handled))
  | @operate o ha h =>
    have hm := o.handled hd.toSound ha
    exact .handled (h.elim hm.of_ok fun ⟨_, h⟩ => hm.of_error h)
  | apply hplan h =>
    have handled : ∀ {d'}, Follows d d' → Handled d d' := fun h => ⟨d, .refl, h.1, .edits h.2⟩
    exact .handled (h.meets ((Merge.following_apply hd.numbered hplan).mono (fun _ _ => handled)
      fun _ _ => handled))
  | save h => exact h.meets (save_effect hp)
  | saveBytes h => exact h.meets (saveBytes_effect hp)
  | set hn h => exact h.meets (setPart_effect hp hn)

theorem Looks.indexed (h : Looks d d') (hp : d.package? = some p) (hi : Indexed p.names d) :
    Indexed p.names d' := by
  induction h with
  | refl => exact hi
  | tail hl h ih => exact h.indexed ((Looks.reads hl).package.trans hp) ih

theorem Open.effect (hd : d.Open) (hnamed : ∀ n, free n → Named n) (h : Effect free d d') :
    d'.Open := by
  obtain ⟨p, hp, hw, hi⟩ := hd.package
  cases h with
  | handled h =>
    obtain ⟨hsound, -⟩ := h.sequel hd.toSound
    obtain ⟨d₁, hl, hsame, -⟩ := h
    have hi₁ := hl.indexed hp hi
    unfold SameParts at hsame
    refine ⟨hsound, p, by rw [hsame]; exact hl.reads.package.trans hp, hw, ?_⟩
    rw [hsame]
    exact ⟨hi₁.unique, hi₁.members⟩
  | @written q hq h =>
    obtain rfl := Option.some.inj (hp.symm.trans hq)
    rw [h]
    have hnames : (writeParts d.forest d.parts p).names = p.names := names_writeParts hi.members
    refine ⟨⟨⟨hd.numbered, hd.parts⟩, hd.root⟩, _, rfl,
      ⟨sane_writeParts hi.members hw.toSane, hnames.symm ▸ hw.short⟩, ?_⟩
    rw [hnames]
    exact ⟨hi.unique, hi.members⟩
  | @put q name x hn hq h =>
    obtain rfl := Option.some.inj (hp.symm.trans hq)
    rw [h]
    have hname := hnamed _ hn
    have hw' : (p.putDocument name x).Writable := by
      refine hw.put ?_ ?_
      · rw [Archive.Member.nameBytes, hname.nameBytes]
        exact Text.toUtf8_ne_nil (mt String.toList_eq_nil_iff.1 hname.1)
      · rw [Archive.Member.nameBytes, hname.nameBytes]
        exact hname.2.2
    exact ⟨⟨⟨hd.numbered, hd.parts⟩, hd.root⟩, _, rfl, hw', hi.unique, fun part hpart =>
      p.names_subset_put _ (hi.members part hpart)⟩

/-- A part that has been read stays so, as the part that it is. -/
theorem Effect.parts (h : Effect free d d') : d.parts <+: d'.parts := by
  cases h with
  | handled h =>
    obtain ⟨d₁, hl, hsame, -⟩ := h
    unfold SameParts at hsame
    rw [hsame]
    exact hl.reads.parts
  | written _ h | put _ _ h => exact h ▸ List.prefix_rfl

theorem Open.events (hd : d.Open) (hnamed : ∀ n, free n → Named n) (h : Events free d d') :
    d'.Open ∧ d.parts <+: d'.parts := by
  induction h with
  | refl => exact ⟨hd, List.prefix_rfl⟩
  | tail _ h ih =>
    have heffect := h.effect ih.1
    exact ⟨ih.1.effect hnamed heffect, ih.2.trans heffect.parts⟩

/-! ## Following an update -/

/-- Where the bytes of a member have got to: the part has not been read, and the package has them,
or it has been read, and it has been read from them. -/
inductive Following (name : String) (bytes : Text.Bytes) (d : Document) : Prop
  | waiting {p : Package} (hn : d.rootOf name = none) (hp : d.package? = some p)
      (hb : p.bytes? name = some bytes)
  | taken {part : Part} {y : Xml.Document} {n m : Nat} (hm : part ∈ d.parts)
      (hn : part.name = name) (hy : Xml.Document.read? bytes n = some (y, m))
      (hf : part.frame = y.frame)

theorem Following.look (hf : Following name bytes d) (h : Look d d') :
    Following name bytes d' := by
  have hparts := (Looks.reads (.single h)).parts
  cases hf with
  | taken hm hn hy hfr => exact .taken (hparts.subset hm) hn hy hfr
  | @waiting p hn hp hb =>
    cases h with
    | report h =>
      obtain rfl := (EStateM.Result.ok.inj h).2
      exact .waiting hn hp hb
    | @part name' r h =>
      cases (partRoot?_looked _ _).of_ok h with
      | known | missing => exact .waiting hn hp hb
      | @read q x next hr hq hx =>
        obtain rfl := Option.some.inj (hp.symm.trans hq)
        by_cases he : name' = name
        · subst he
          obtain ⟨bytes', hb', hread⟩ := Package.document?_eq_some.1 hx
          obtain rfl := Option.some.inj (hb.symm.trans hb')
          exact .taken (List.mem_append_right _ List.mem_cons_self) rfl hread rfl
        · refine .waiting ?_ hp hb
          have hroot := rootOf_append ⟨name', x.root.tag.id, x.frame⟩ hr name
            (d.forest.plant x.root next)
          rw [if_neg he] at hroot
          exact hroot.trans hn

theorem Following.looks (hf : Following name bytes d) (h : Looks d d') :
    Following name bytes d' := by
  induction h with
  | refl => exact hf
  | tail _ h ih => exact ih.look h

theorem Following.sameParts (hf : Following name bytes d) (h : SameParts d d') :
    Following name bytes d' := by
  unfold SameParts at h
  rw [h]
  cases hf with
  | waiting hn hp hb => exact .waiting hn hp hb
  | taken hm hn hy hfr => exact .taken hm hn hy hfr

theorem Following.effect (hf : Following name bytes d) (hfree : ∀ n, free n → n ≠ name)
    (h : Effect free d d') : Following name bytes d' := by
  have hparts := h.parts
  cases hf with
  | taken hm hn hy hfr => exact .taken (hparts.subset hm) hn hy hfr
  | @waiting p hn hp hb =>
    cases h with
    | handled h =>
      obtain ⟨d₁, hl, hsame, -⟩ := h
      exact ((Following.waiting hn hp hb).looks hl).sameParts hsame
    | @written q hq h =>
      obtain rfl := Option.some.inj (hp.symm.trans hq)
      rw [h]
      exact .waiting hn rfl ((bytes?_writeParts_of_notMem (rootOf_eq_none.1 hn)).trans hb)
    | @put q name' x hf hq h =>
      obtain rfl := Option.some.inj (hp.symm.trans hq)
      rw [h]
      exact .waiting hn rfl ((Package.bytes?_put_of_ne (hfree _ hf).symm).trans hb)

theorem Following.events (hf : Following name bytes d) (hd : d.Open)
    (hfree : ∀ n, free n → Named n ∧ n ≠ name) (h : Events free d d') :
    Following name bytes d' := by
  induction h with
  | refl => exact hf
  | tail hs h ih =>
    have hopen := (hd.events (fun n hn => (hfree n hn).1) hs).1
    exact ih.effect (fun n hn => (hfree n hn).2) (h.effect hopen)

/-! ## What is saved -/

/-- The tree of a part, with the first numbers: the one that has been read, or else the one that the
package has. -/
def current? (d : Document) (name : String) : Option Element :=
  match d.rootOf name with
  | some r => (d.forest.element? r).map fun e => (e.renumber 0).1
  | none => (d.package?.bind (·.bytes? name)).bind fun bytes =>
      (Xml.Document.read? bytes 0).map (·.1.renumbered.root)

theorem Looked.current? {name' : String} {r : Option Nat} (h : Looked d name' r d') (hd : d.Filed)
    (name : String) : d'.current? name = d.current? name := by
  cases h with
  | known | missing => rfl
  | @read p x next hr hp hx =>
    have hpl := planted_of_document? hx
    have hroot := rootOf_append ⟨name', x.root.tag.id, x.frame⟩ hr name (d.forest.plant x.root next)
    simp only at hroot
    by_cases he : name' = name
    · subst he
      obtain ⟨bytes, hb, hread⟩ := Package.document?_eq_some.1 hx
      rw [Document.current?, hroot, if_pos rfl, Document.current?, hr, hp]
      simp only [element?_plant hd.numbered hpl, Option.bind_some, hb]
      exact (Xml.Document.read?_root hread).symm
    · rw [if_neg he] at hroot
      cases hr' : d.rootOf name with
      | none => simp only [Document.current?, hroot, hr']
      | some i =>
        obtain ⟨e, -, hi⟩ := hd.root? hr'
        simp only [Document.current?, hroot, hr', hi, Planted.element? hpl hd.numbered hi]

/-- To look at a document is not to work on its parts. -/
theorem Looks.current? (h : Looks d d') (hd : d.Filed) (name : String) :
    d'.current? name = d.current? name := by
  induction h with
  | refl => rfl
  | tail hs h ih =>
    rw [← ih]
    cases h with
    | report h =>
      obtain rfl := (EStateM.Result.ok.inj h).2
      rfl
    | part h => exact ((partRoot?_looked _ _).of_ok h).current? ((Looks.reads hs).filed hd) name

theorem Indexed.rootOf {names : List String} (hi : Indexed names d) {part : Part}
    (hm : part ∈ d.parts) : d.rootOf part.name = some part.root := by
  rw [Document.rootOf, Option.map_eq_some_iff]
  cases hfind : d.parts.find? fun part' => part'.name = part.name with
  | none => simpa using List.find?_eq_none.1 hfind part hm
  | some part' =>
    have hname : part'.name = part.name := by simpa using List.find?_some hfind
    exact ⟨part', rfl, congrArg Part.root
      (List.inj_on_of_nodup_map hi.unique (List.mem_of_find?_eq_some hfind) hm hname)⟩

/-- A part that has been read is saved as the document that it has become. -/
theorem Open.bytes?_of_mem (hd : d.Open) (hp : d.package? = some p) {part : Part}
    (hm : part ∈ d.parts) : ∃ e, d.forest.element? part.root = some e ∧
      part.document? d.forest = some ⟨part.frame, e⟩ ∧
      (writeParts d.forest d.parts p).bytes? part.name =
        some (Text.toUtf8 (Xml.Document.write ⟨part.frame, e⟩)) := by
  obtain ⟨q, hq, -, hi⟩ := hd.package
  obtain rfl := Option.some.inj (hp.symm.trans hq)
  obtain ⟨e, -, he⟩ := hd.toFiled.root? (hi.rootOf hm)
  have hdoc : part.document? d.forest = some ⟨part.frame, e⟩ := by rw [Part.document?, he]; rfl
  exact ⟨e, he, hdoc, bytes?_writeParts_of_mem hdoc hi.unique hi.members hm⟩

/-- What has been written into a member is saved, if the part is not worked on when it is read. -/
theorem Following.saved {x : Xml.Document} (hf : Following name (Text.toUtf8 x.write) d)
    (hd : d.Open) (hp : d.package? = some p)
    (hsame : d.rootOf name = none ∨ x.Stable ∧ d.current? name =
      (Xml.Document.read? (Text.toUtf8 x.write) 0).map (·.1.renumbered.root)) :
    (writeParts d.forest d.parts p).bytes? name = some (Text.toUtf8 x.write) := by
  cases hf with
  | @waiting q hn hq hb =>
    obtain rfl := Option.some.inj (hp.symm.trans hq)
    exact (bytes?_writeParts_of_notMem (rootOf_eq_none.1 hn)).trans hb
  | @taken part y n m hm hn hy hfr =>
    subst hn
    obtain ⟨q, hq, -, hi⟩ := hd.package
    have hroot := hi.rootOf hm
    obtain ⟨e, he, -, hbytes⟩ := hd.bytes?_of_mem hp hm
    rcases hsame with hnone | ⟨hstable, hcurrent⟩
    · cases hnone.symm.trans hroot
    -- The tree of the part has the root that has been read, and its frame never changes.
    rw [Xml.Document.read?_root hy] at hcurrent
    simp only [current?, hroot, he, Option.map_some, Option.some.injEq] at hcurrent
    have hdoc : Xml.Document.renumbered ⟨part.frame, e⟩ = y.renumbered := by
      rw [Xml.Document.renumbered, hcurrent, hfr]
      rfl
    rw [hbytes, ← Xml.Document.write_renumbered, hdoc, Xml.Document.write_renumbered,
      hstable.write hy]

theorem open_of_openArchive (hp : Package.ofArchive source bytes = .ok p) (hw : p.Writable)
    (h : openArchive source bytes (unread path?) = .ok () d) : d.Open := by
  obtain ⟨p', hp', hq, -, hk⟩ := kept_of_openArchive h
  obtain rfl := Except.ok.inj (hp.symm.trans hp')
  exact ⟨hk.toSound, p, hq, hw, hk.indexed⟩

/-- What is written into a member of an open document is saved if the document has not read the part
before, and does not work on it afterwards, should it read it. If it has read the part, what is
saved is the tree that the document has of it. -/
theorem saved_update {d₀ : Document} (x : Xml.Document)
    (hopen : openArchive source bytes (unread path?) = .ok () d₀)
    (hshort : ∀ p, Package.ofArchive source bytes = .ok p →
      ∀ n ∈ p.names, (Archive.nameBytes n).length ≤ Archive.maxNameSize)
    (hbefore : Events Named d₀ d) (hname : Named name) :
    ∃ d₁, setPart name x d = .ok () d₁ ∧
      ∀ d₂, Events (fun n => Named n ∧ n ≠ name) d₁ d₂ →
        ∃ saved d₃ q, saveBytes d₂ = .ok saved d₃ ∧ d₃.package? = some q ∧
          Archive.write q.members = .ok saved ∧
          (Archive.Ordinary q.members → Archive.read .memory saved = .ok q.members) ∧
          (d.rootOf name = none →
            d₂.rootOf name = none ∨ x.Stable ∧ d₂.current? name = d₁.current? name →
              q.bytes? name = some (Text.toUtf8 x.write)) ∧
          ∀ part ∈ d.parts, part.name = name → ∃ y, part.document? d₂.forest = some y ∧
            q.bytes? name = some (Text.toUtf8 y.write) := by
  obtain ⟨p₀, hp₀, -⟩ := kept_of_openArchive hopen
  have hd : d.Open := ((open_of_openArchive hp₀ ⟨Package.sane_ofArchive hp₀, hshort p₀ hp₀⟩
    hopen).events (fun _ h => h) hbefore).1
  obtain ⟨p, hp, -⟩ := hd.package
  refine ⟨_, setPart_eq hp name x, fun d₂ hafter => ?_⟩
  generalize hd₁ : ({ d with package? := some (p.putDocument name x) } : Document) = d₁ at *
  have hput : Effect Named d d₁ := .put hname hp hd₁.symm
  have hopen₁ : d₁.Open := hd.effect (fun _ h => h) hput
  obtain ⟨hopen₂, hparts⟩ := hopen₁.events (fun _ h => h.1) hafter
  obtain ⟨p₂, hp₂, hfits, hi⟩ := hopen₂.package
  have hnames : (writeParts d₂.forest d₂.parts p₂).names = p₂.names := names_writeParts hi.members
  obtain ⟨saved, hw⟩ := Package.Writable.exists_write
    ⟨sane_writeParts hi.members hfits.toSane, hnames.symm ▸ hfits.short⟩
  refine ⟨saved, _, _, saveBytes_of_write hp₂ hw, rfl, hw, fun ho => Archive.read_write ho hw,
    fun hn hsame => ?_, ?_⟩
  · have hbytes : (p.putDocument name x).bytes? name = some (Text.toUtf8 x.write) :=
      Package.bytes?_put_self p ⟨name, _⟩
    have hn₁ : d₁.rootOf name = none := hd₁ ▸ hn
    have hp₁ : d₁.package? = some (p.putDocument name x) := by rw [← hd₁]
    have hf : Following name (Text.toUtf8 x.write) d₂ :=
      (Following.waiting hn₁ hp₁ hbytes).events hopen₁ (fun _ h => h) hafter
    have hcurrent : d₁.current? name =
        (Xml.Document.read? (Text.toUtf8 x.write) 0).map (·.1.renumbered.root) := by
      simp only [current?, hn₁, hp₁, Option.bind_some, hbytes]
    exact hf.saved hopen₂ hp₂ (hcurrent ▸ hsame)
  · rintro part hm rfl
    obtain ⟨e, -, hdoc, hbytes⟩ :=
      hopen₂.bytes?_of_mem hp₂ ((hput.parts.trans hparts).subset hm)
    exact ⟨_, hdoc, hbytes⟩

/-- A document with nothing in its body. -/
def blankPage : List Archive.Member := [
  ⟨PartName.main, ("<document xmlns=\"http://schemas.openxmlformats.org/wordprocessingml/" ++
    "2006/main\"><body/></document>").toList.flatMap String.utf8EncodeChar⟩]

theorem exists_blankPage : ∃ bytes, Archive.write blankPage = .ok bytes ∧
    Package.ofArchive .memory bytes = .ok (Package.ofMembers blankPage) := by
  have hordinary : Archive.Ordinary blankPage := by decide +kernel
  obtain ⟨bytes, hw⟩ := hordinary.exists_write
  exact ⟨bytes, hw, by rw [Package.ofArchive, Archive.read_write hordinary hw]⟩

theorem blankPage_writable : (Package.ofMembers blankPage).Writable :=
  ⟨Package.sane_ofMembers (by decide +kernel), by decide +kernel⟩

/-- A part with one text. -/
def oneText : Xml.Document :=
  ⟨⟨"1.0", [], none, [], []⟩, ⟨⟨0, ⟨"", "notes"⟩, none, [], []⟩, .text ['a'] .nil⟩⟩

/-- Footnotes are written into a document that has none, and read before it is saved. -/
theorem footnotes_saved : ∃ bytes d₀ d₁ d₂ saved d₃, ∃ q : Package,
    Archive.write blankPage = .ok bytes ∧ openBytes bytes (unread none) = .ok () d₀ ∧
    setPart PartName.footnotes oneText d₀ = .ok () d₁ ∧ After text d₁ d₂ ∧
    (d₂.rootOf PartName.footnotes).isSome ∧ saveBytes d₂ = .ok saved d₃ ∧
    Archive.read .memory saved = .ok q.members ∧
    q.bytes? PartName.footnotes = some (Text.toUtf8 oneText.write) := by
  have hname : Named PartName.footnotes := by decide +kernel
  obtain ⟨bytes, hw, hp⟩ := exists_blankPage
  have hrun : Meets (openBytes bytes) (unread none) (fun _ d₀ =>
      d₀.rootOf PartName.footnotes = none ∧
        Meets (setPart PartName.footnotes oneText) d₀ (fun _ d₁ => Meets text d₁ (fun _ d₂ =>
          (d₂.rootOf PartName.footnotes).isSome ∧ Meets saveBytes d₂ (fun _ d₃ =>
            ∀ q ∈ d₃.package?, Archive.Ordinary q.members)
            fun _ _ => False) fun _ _ => False) fun _ _ => False)
      fun _ _ => False := by
    rw [openBytes, openArchive, hp]
    decide +kernel
  obtain ⟨⟨⟩, d₀, hopen, hnone, hrun⟩ := hrun.exists_ok
  obtain ⟨d₁, hset, hsaved⟩ := saved_update oneText hopen
    (fun p hp' => Except.ok.inj (hp.symm.trans hp') ▸ blankPage_writable.short) .refl hname
  obtain ⟨_, d₂, htext, hread, hrun⟩ := (hrun.of_ok hset).exists_ok
  obtain ⟨saved, d₃, q, hsave, hq, -, hback, hbytes, -⟩ :=
    hsaved d₂ (.single (.text (.inl ⟨_, htext⟩)))
  have hstable : oneText.Stable := by decide +kernel
  have hfiled : d₁.Filed := ((open_of_openArchive hp blankPage_writable hopen).events
    (fun _ h => h) (.single (.set hname (.inl ⟨_, hset⟩)))).1.toFiled
  exact ⟨bytes, d₀, d₁, d₂, saved, d₃, q, hw, hopen, hset, .inl ⟨_, htext⟩, hread, hsave,
    hback (hrun.of_ok hsave q hq),
    hbytes hnone (.inr ⟨hstable, (looking_text.of_ok htext).current? hfiled _⟩)⟩

/-- Every document that is open has read its main part, so what is written into that is not what is
saved. -/
theorem main_update_lost : ∃ bytes d₀ d₁ saved d₂, ∃ q : Package,
    Archive.write blankPage = .ok bytes ∧ openBytes bytes (unread none) = .ok () d₀ ∧
    setPart PartName.main oneText d₀ = .ok () d₁ ∧ saveBytes d₁ = .ok saved d₂ ∧
    Archive.read .memory saved = .ok q.members ∧
    q.bytes? PartName.main ≠ some (Text.toUtf8 oneText.write) := by
  obtain ⟨bytes, hw, hp⟩ := exists_blankPage
  have hrun : Meets (openBytes bytes) (unread none) (fun _ d₀ =>
      Meets (setPart PartName.main oneText) d₀ (fun _ d₁ => ∀ q ∈ d₁.package?,
        Archive.Ordinary (writeParts d₁.forest d₁.parts q).members ∧
          (writeParts d₁.forest d₁.parts q).bytes? PartName.main ≠
            some (Text.toUtf8 oneText.write))
        fun _ _ => False) fun _ _ => False := by
    rw [openBytes, openArchive, hp]
    decide +kernel
  obtain ⟨⟨⟩, d₀, hopen, hrun⟩ := hrun.exists_ok
  obtain ⟨⟨⟩, d₁, hset, hrun⟩ := hrun.exists_ok
  obtain ⟨p, hp₁, -⟩ := ((open_of_openArchive hp blankPage_writable hopen).events (fun _ h => h)
    (.single (.set (by decide +kernel : Named PartName.main) (.inl ⟨_, hset⟩)))).1.package
  obtain ⟨hordinary, hbytes⟩ := hrun p hp₁
  obtain ⟨saved, hw', hread⟩ := hordinary.readsBack
  exact ⟨bytes, d₀, d₁, saved, _, _, hw, hopen, hset, saveBytes_of_write hp₁ hw', hread, hbytes⟩

end Document

end MailMerge
