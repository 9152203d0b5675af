import MailMerge.Proofs.Kept

/-!
# Saving and opening again

A document that has been opened may be listed, worked on and saved, in any order and as often as one
likes, and each of these may fail on the way (`Uses`). What is saved of it then opens, and the
document that it opens as looks alike: all parts have the same trees, whether they have been read or
not (`saving_loses_nothing`). It is taken for granted that what is written of a tree is read as this
tree, and what is written of members as these members.
-/

namespace MailMerge

open Xml Word

namespace Document

variable {d d' : Document} {p p₀ : Package} {path? : Option Files.Path} {source : Archive.Source}
  {bytes : Text.Bytes}

/-! ## Opening -/

/-- What a package needs to be opened as a document: a main part that has a body. -/
def HasBody (p : Package) : Prop :=
  ∃ t, p.tree? PartName.main = .ok (some t) ∧ (t.inner.child? Names.body).isSome = true

/-- A package opens as a document if its main part has a body, and then everything is as it is in
the package. -/
theorem openArchive_spec : Meets (openArchive source bytes) (unread path?)
    (fun _ d => ∃ p, Package.ofArchive source bytes = .ok p ∧ d.package? = some p ∧
      HasBody p ∧ Indexed p.names d ∧ ∀ name, d.tree? name = p.tree? name)
    fun _ _ => ∀ p, Package.ofArchive source bytes = .ok p → ¬HasBody p := by
  rw [openArchive]
  split
  · next err he => exact fun p hp => by cases he.symm.trans hp
  next p hp =>
  simp only [meets_bind, meets_modify, meets_get]
  generalize hd : ({ unread path? with package? := some p, log := _ } : Document) = d₁
  have hfiled : d₁.Filed := by
    rw [← hd]
    exact ⟨numbered_empty, by simp [unread]⟩
  have htree : ∀ name, d₁.tree? name = p.tree? name := fun name => by rw [← hd]; rfl
  -- The body is looked for in the tree of the main part.
  have hbody : ∀ {x : Element}, p.tree? PartName.main = .ok (some x.plain) →
      (HasBody p ↔ (x.inner.child? Names.body).isSome = true) := by
    intro x hx
    have hplain : (x.plain.inner.child? Names.body).isSome =
        (x.inner.child? Names.body).isSome := by
      rw [Element.plain_inner, Content.child?_plain, Option.isSome_map]
    simp only [HasBody, hx, Except.ok.injEq, Option.some.injEq, exists_eq_left', hplain]
  refine (looking_partRoot?.and (partRoot?_looked PartName.main d₁)).mono ?_ ?_
  · rintro r d' ⟨hl, hlooked⟩
    have hpack : d₁.package? = some p := by rw [← hd]
    have hindexed : Indexed p.names d' :=
      hlooked.indexed hpack (by rw [← hd]; exact ⟨.nil, by simp [unread]⟩)
    rcases hlooked.found hfiled with ⟨rfl, ht⟩ | ⟨i, x, rfl, hx, ht⟩
    · rintro q hq ⟨t, ht', -⟩
      obtain rfl := Except.ok.inj (hp.symm.trans hq)
      cases ht.symm.trans ((htree _).trans ht')
    · simp only [meets_bind, meets_modify, meets_view, hx, Option.bind_some]
      have hb := hbody ((htree _).symm.trans ht)
      split
      · next b hchild =>
        exact ⟨p, hp, hl.reads.package.trans hpack, hb.2 (by rw [hchild]; rfl),
          ⟨hindexed.unique, hindexed.members⟩,
          fun name => (hl.tree? hfiled name).trans (htree name)⟩
      · next hchild =>
        rintro q hq
        obtain rfl := Except.ok.inj (hp.symm.trans hq)
        rw [hb, hchild]
        decide
  · rintro err d' ⟨-, -, ht⟩ q hq ⟨t, ht', -⟩
    obtain rfl := Except.ok.inj (hp.symm.trans hq)
    cases ht.symm.trans ((htree _).trans ht')

theorem kept_of_openArchive (h : openArchive source bytes (unread path?) = .ok () d) :
    ∃ p, Package.ofArchive source bytes = .ok p ∧ d.package? = some p ∧
      (∀ name, d.tree? name = p.tree? name) ∧ Kept p d := by
  obtain ⟨p, hp, hpack, hbody, hindexed, htree⟩ := openArchive_spec.of_ok h
  refine ⟨p, hp, hpack, htree, opened_openArchive.of_ok h,
    ⟨p, hpack, Package.sane_ofArchive hp, rfl, fun _ _ => rfl⟩, hindexed, ?_, ?_⟩
  · rw [outcome_targets hpack, htree]
  · exact (htree PartName.main).symm ▸ hbody

/-! ## Uses -/

/-- What comes of work, whether it fails or not. -/
def After {α : Type} (x : Work α) (d d' : Document) : Prop :=
  (∃ a, x d = .ok a d') ∨ ∃ err, x d = .error err d'

/-- A use of a document: it is listed, worked on, merged by a plan, or saved. -/
inductive Use (d d' : Document) : Prop
  | list {x : Work (List Story)} (hx : x ∈ listings) (h : After x d d')
  | text (h : After text d d')
  | operate {o : Operation} (ha : o.Applies d.forest) (h : o.Gives d d')
  | apply {plan : List Substitution} {stats : Stats}
      (hp : ∀ s ∈ plan, NamesParagraph s.tag.paragraph d.forest)
      (h : After (Merge.apply plan stats) d d')
  | save {files : Files.Tree} {given : Option Points} (hb : d.ReadsBack)
      (h : After (save files given) d d')
  | saveBytes (hb : d.ReadsBack) (h : After saveBytes d d')

/-- A sequence of uses. -/
abbrev Uses : Document → Document → Prop := Relation.ReflTransGen Use

theorem After.meets {α : Type} {x : Work α} {good : Document → Prop} (h : After x d d')
    (hx : Meets x d (fun _ => good) fun _ => good) : good d' := by
  rcases h with ⟨a, h⟩ | ⟨err, h⟩
  · exact hx.of_ok h
  · exact hx.of_error h

/-- What is saved: the package with all parts that have been read written into it. -/
theorem saveBytes_of_write (hp : d.package? = some p)
    (hw : Archive.write (writeParts d.forest d.parts p).members = .ok bytes) :
    saveBytes d = .ok bytes { d with package? := some (writeParts d.forest d.parts p) } := by
  have hget : (get : Work Document) d = .ok d d := rfl
  have hset : ∀ d' : Document, (set d' : Work PUnit) d = .ok ⟨⟩ d' := fun _ => rfl
  have harchive : (writeParts d.forest d.parts p).archive = .ok bytes := by
    rw [Package.archive, hw]
    rfl
  simp only [saveBytes, bind, EStateM.bind, package_of_some hp, hget, hset, harchive]
  rfl

/-- Why nothing is saved: the name of a member cannot be written. -/
theorem saveBytes_of_fault {fault : Archive.NameFault} (hp : d.package? = some p)
    (hw : Archive.write (writeParts d.forest d.parts p).members = .error fault) :
    Meets saveBytes d (fun _ _ => False) fun err _ => err = Package.nameFault fault := by
  rw [saveBytes, meets_bind, meets_of_ok (package_of_some hp), meets_bind, meets_get, meets_bind,
    meets_set, Package.archive, hw]
  rfl

/-- All parts are written, whether the archive can be made or not. -/
theorem saveBytes_writes (hp : d.package? = some p) :
    Meets saveBytes d
      (fun _ d' => d' = { d with package? := some (writeParts d.forest d.parts p) })
      fun _ d' => d' = { d with package? := some (writeParts d.forest d.parts p) } := by
  rw [saveBytes, meets_bind, meets_of_ok (package_of_some hp), meets_bind, meets_get, meets_bind,
    meets_set]
  split <;> rfl

theorem saveBytes_kept (hk : Kept p₀ d) (hb : d.ReadsBack) :
    Meets saveBytes d (fun _ => Kept p₀) fun _ => Kept p₀ := by
  obtain ⟨p, hp, -⟩ := hk.package
  refine (saveBytes_writes hp).mono ?_ ?_
  · rintro _ _ rfl
    exact hk.written hp hb
  · rintro _ _ rfl
    exact hk.written hp hb

theorem save_kept {files : Files.Tree} {given : Option Points} (hk : Kept p₀ d)
    (hb : d.ReadsBack) : Meets (save files given) d (fun _ => Kept p₀) fun _ => Kept p₀ := by
  simp only [save, meets_bind, meets_get]
  split
  · exact hk
  · rw [meets_bind]
    refine (saveBytes_kept hk hb).mono (fun bytes d' hk' => ?_) fun _ _ h => h
    cases files.write (.ofPoints _) bytes with
    | mk files outcome =>
      cases outcome with
      | error f => exact hk'
      | ok _ =>
        rw [meets_bind, meets_report, meets_pure]
        exact (Look.report rfl).kept hk'

theorem looking_of_mem_listings {x : Work (List Story)} (hx : x ∈ listings) : Looking x d := by
  simp only [listings, List.mem_cons, List.not_mem_nil, or_false] at hx
  rcases hx with rfl | rfl | rfl | rfl | rfl | rfl
  · exact looking_referredBy
  · exact looking_body
  · exact looking_referredBy
  · exact looking_notes
  · exact looking_notes
  · exact looking_stories

theorem Use.kept (h : Use d d') (hk : Kept p₀ d) : Kept p₀ d' := by
  cases h with
  | list hx h =>
    exact h.meets ((looking_of_mem_listings hx).mono (fun _ _ => hk.looks) fun _ _ => hk.looks)
  | text h => exact h.meets (looking_text.mono (fun _ _ => hk.looks) fun _ _ => hk.looks)
  | @operate o ha h =>
    have hm := (o.handled hk.toSound ha).mono (fun _ _ => hk.handled) fun _ _ => hk.handled
    exact h.elim hm.of_ok fun ⟨_, h⟩ => hm.of_error h
  | apply hp h =>
    have handled : ∀ {d'}, Follows d d' → Kept p₀ d' := fun h => hk.worked h.1 (.edits h.2)
    exact h.meets ((Merge.following_apply hk.numbered hp).mono (fun _ _ => handled)
      fun _ _ => handled)
  | save hb h => exact h.meets (save_kept hk hb)
  | saveBytes hb h => exact h.meets (saveBytes_kept hk hb)

/-- A merge is a use. -/
theorem use_run {fields : FieldMap} (h : After (Merge.run fields) d d') : Use d d' := by
  refine .operate (o := .merge fields) (fun _ _ h => by cases h) ?_
  rcases h with ⟨stats, h⟩ | ⟨err, h⟩
  · refine .inl ?_
    simp only [Operation.work, bind, EStateM.bind, h]
    rfl
  · refine .inr ⟨err, ?_⟩
    simp only [Operation.work, bind, EStateM.bind, h]

theorem kept_run {fields : FieldMap} (hk : Kept p₀ d) :
    Meets (Merge.run fields) d (fun _ => Kept p₀) fun _ => Kept p₀ :=
  (meets_self _ _).mono (fun stats _ h => (use_run (.inl ⟨stats, h⟩)).kept hk)
    fun err _ h => (use_run (.inr ⟨err, h⟩)).kept hk

theorem Uses.kept (h : Uses d d') (hk : Kept p₀ d) : Kept p₀ d' := by
  induction h with
  | refl => exact hk
  | tail _ h ih => exact h.kept ih

/-- What has been saved opens, and looks alike. -/
theorem reopened (hk : Kept p₀ d) (hp : d.package? = some p) (hb : d.ReadsBack)
    (hz : Archive.read .memory bytes = .ok (writeParts d.forest d.parts p).members) :
    ∃ e q, openBytes bytes (unread none) = .ok () e ∧ Package.ofArchive .memory bytes = .ok q ∧
      q.members = (writeParts d.forest d.parts p).members ∧ Alike d e := by
  have htree := hk.tree?_written hp hb
  obtain ⟨p', hp', hsane, hnames, -⟩ := hk.package
  obtain rfl := Option.some.inj (hp.symm.trans hp')
  have hsane' : (writeParts d.forest d.parts p).Sane :=
    sane_writeParts (hnames ▸ hk.indexed.members) hsane
  set q := Package.ofMembers (writeParts d.forest d.parts p).members with hq
  have hof : Package.ofArchive .memory bytes = .ok q := by rw [Package.ofArchive, hz]
  have hmembers : q.members = (writeParts d.forest d.parts p).members :=
    Package.members_ofMembers hsane'.distinct
  have hqtree : ∀ name, q.tree? name = d.tree? name := fun name => by
    rw [← htree name, Package.tree?, Package.tree?,
      Package.document?_congr (congrFun (Package.bytes?_congr hmembers) name)]
  have hbody : HasBody q := by
    obtain ⟨t, ht, hb⟩ := hk.body
    exact ⟨t, (hqtree _).trans ht, hb⟩
  have hopens : Meets (openArchive .memory bytes) (unread none) (fun _ _ => True)
      fun _ _ => False :=
    openArchive_spec.mono (fun _ _ _ => trivial) fun _ _ h => h q hof hbody
  obtain ⟨⟨⟩, e, he, -⟩ := hopens.exists_ok
  obtain ⟨q', hof', -, htree', hk'⟩ := kept_of_openArchive he
  obtain rfl := Except.ok.inj (hof.symm.trans hof')
  have hsame : ∀ name, e.tree? name = d.tree? name := fun name =>
    (htree' name).trans (hqtree name)
  exact ⟨e, q, he, hof, hmembers, hk.toOpened, hk'.toOpened, hsame,
    by rw [hk'.leads, hk.leads, hsame]⟩

/-- Saving loses nothing. What is saved of a document that has been opened, whatever it has been
used for since, opens as a document of which the same is listed, with the same parts and the same
trees, and which has the same text. It has the names of the package that the first document was
opened from, in their order, and the bytes of all members that have not been read. -/
theorem saving_loses_nothing {d₀ : Document} (hp : Package.ofArchive source bytes = .ok p)
    (hopen : openArchive source bytes (unread path?) = .ok () d₀) (huses : Uses d₀ d)
    (hxml : d.ReadsBack) (hzip : ∀ q, d.package? = some q →
      Archive.ReadsBack (writeParts d.forest d.parts q).members) :
    ∃ saved d' q e, saveBytes d = .ok saved d' ∧ Package.ofArchive .memory saved = .ok q ∧
      openBytes saved (unread none) = .ok () e ∧
      (∀ x ∈ listings, outcome (seen x) e = outcome (seen x) d) ∧
      (∀ name, e.tree? name = d.tree? name) ∧ outcome text e = outcome text d ∧
      q.names = p.names ∧ ∀ name, d.rootOf name = none → q.bytes? name = p.bytes? name := by
  obtain ⟨p', hp', hpack₀, -, hk₀⟩ := kept_of_openArchive hopen
  obtain rfl := Except.ok.inj (hp.symm.trans hp')
  have hk := huses.kept hk₀
  obtain ⟨q, hq, -, hnames, hbytes⟩ := hk.package
  obtain ⟨saved, hw, hread⟩ := hzip q hq
  obtain ⟨e, q', he, hof, hmembers, halike⟩ := reopened hk hq hxml hread
  refine ⟨saved, _, q', e, saveBytes_of_write hq hw, hof, he, halike.seen, halike.tree, halike.text, ?_,
    fun name hn => ?_⟩
  · rw [Package.names, hmembers, ← Package.names, names_writeParts (hnames ▸ hk.indexed.members),
      hnames]
  · rw [Package.bytes?_congr hmembers, bytes?_writeParts_of_notMem (rootOf_eq_none.1 hn),
      hbytes name hn]

instance (d : Document) : Decidable d.ReadsBack :=
  decidable_of_iff (∀ part ∈ d.parts, ∀ x ∈ part.document? d.forest, (Xml.Document.read?
      (x.write.flatMap String.utf8EncodeChar) 0).map (·.1.root.plain) = some x.root.plain)
    (by simp only [ReadsBack, Text.toUtf8_eq]; rfl)

/-- A letter with one tag, and a member that is no part. -/
def letter : List Archive.Member := [
  ⟨PartName.main, ("<document xmlns=\"http://schemas.openxmlformats.org/wordprocessingml/2006/main\">" ++
    "<body><p><r><t>&lt;&lt;A>></t></r></p></body></document>").toList.flatMap
      String.utf8EncodeChar⟩,
  ⟨"a", [7]⟩]

theorem letter_saved : ∃ bytes d₀ stats d saved d' q e, Archive.write letter = .ok bytes ∧
    openBytes bytes (unread none) = .ok () d₀ ∧
    Merge.run (.of [(points ['A'], .text (points ['b']))]) d₀ = .ok stats d ∧
    saveBytes d = .ok saved d' ∧
    Package.ofArchive .memory saved = .ok q ∧ openBytes saved (unread none) = .ok () e ∧
    outcome text e = .ok ['b'] ∧ q.names = [PartName.main, "a"] ∧ q.bytes? "a" = some [7] := by
  have hletter : Archive.Ordinary letter := by decide +kernel
  obtain ⟨bytes, hw⟩ := hletter.exists_write
  have hp : Package.ofArchive .memory bytes = .ok (Package.ofMembers letter) := by
    rw [Package.ofArchive, Archive.read_write hletter hw]
  have hrun : Meets (openBytes bytes) (unread none) (fun _ d₀ =>
      Meets (Merge.run (.of [(points ['A'], .text (points ['b']))])) d₀ (fun _ d => d.ReadsBack ∧
        (∀ q ∈ d.package?, Archive.Ordinary (writeParts d.forest d.parts q).members) ∧
        outcome text d = .ok ['b'] ∧ d.rootOf "a" = none) fun _ _ => False)
      fun _ _ => False := by
    rw [openBytes, openArchive, hp]
    decide +kernel
  obtain ⟨⟨⟩, d₀, hopen, hrun⟩ := hrun.exists_ok
  obtain ⟨stats, d, hmerge, hxml, hzip, htext, hunread⟩ := hrun.exists_ok
  have huses : Uses d₀ d := .single (use_run (.inl ⟨stats, hmerge⟩))
  obtain ⟨saved, d', q, e, hsave, hq, he, -, -, htext', hnames, hbytes⟩ :=
    saving_loses_nothing hp hopen huses hxml fun q hq => (hzip q hq).readsBack
  refine ⟨bytes, d₀, stats, d, saved, d', q, e, hw, hopen, hmerge, hsave, hq, he,
    htext'.trans htext, hnames.trans ?_, (hbytes "a" hunread).trans ?_⟩
  · decide +kernel
  · decide +kernel

end Document

end MailMerge
