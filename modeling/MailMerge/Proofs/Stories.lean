import MailMerge.Proofs.Reading

/-!
# Finding the stories

Where the stories of a document come from is said without the order in which its parts are read
(`Source`): the stories that are found are the elements of which this holds, and nothing is left to
be read of the parts that they come from (`Ready`, `reading_stories`).
-/

namespace MailMerge.Document

open Xml

/-- The name of the part that a reference leads to. -/
def partOf (targets : List (String × String)) (e : Element) : Option String :=
  (targets.lookup ((e.tag.attribute? Word.Names.relationId).getD "")).map fun target =>
    String.ofList (PartName.resolve target.toList)

/-- The names of the references that stories are found by. -/
def referring : List String := ["headerReference", "footerReference"]

/-- The parts that have notes, with the names of these. -/
def noted : List (String × Name) :=
  [(PartName.footnotes, Word.Names.footnote), (PartName.endnotes, Word.Names.endnote)]

/-- Whether an element is a note that has been written by somebody. -/
def isNote (name : Name) (e : Element) : Bool :=
  e.tag.name = name && (e.tag.attribute? Word.Names.type).isNone

/-- Where a story with a number comes from. -/
inductive Source (targets : List (String × String)) (d : Document) (i : Nat) : Prop
  | part {root e : Element} {base name : String} (hr : d.forest.element? d.root = some root)
      (hb : base ∈ referring) (he : e ∈ references root base) (hn : partOf targets e = some name)
      (hi : d.rootOf name = some i)
  | body {root b : Element} (hr : d.forest.element? d.root = some root)
      (hb : root.inner.child? Word.Names.body = some b) (hi : b.tag.id = i)
  | note {part : String} {name : Name} {r : Nat} {root e : Element} (hp : (part, name) ∈ noted)
      (hr : d.rootOf part = some r) (he : d.forest.element? r = some root)
      (hn : e ∈ root.inner.children) (hi : isNote name e = true) (hid : e.tag.id = i)

/-- Nothing is left to be read of the parts that stories come from. -/
structure Ready (targets : List (String × String)) (d : Document) : Prop where
  given : Document.targets d = .ok targets d
  references : ∀ root, d.forest.element? d.root = some root → ∀ base ∈ referring,
    ∀ e ∈ references root base, ∀ name, partOf targets e = some name → Settled d name
  notes : ∀ x ∈ noted, Settled d x.1

theorem package_of_some {d : Document} {p : Package} (h : d.package? = some p) :
    package d = .ok p d := by
  have hget : (get : Work Document) d = .ok d d := rfl
  simp only [package, bind, EStateM.bind, hget, h]
  rfl

theorem package_of_none {d : Document} (h : d.package? = none) :
    package d = .error (.document .closed []) d := by
  have hget : (get : Work Document) d = .ok d d := rfl
  simp only [package, bind, EStateM.bind, hget, h]
  rfl

/-- What the relationships are depends on the package only. -/
theorem targets_cases (d : Document) :
    (∃ l, ∀ d' : Document, d'.package? = d.package? → targets d' = .ok l d') ∨
      ∃ fault details, ∀ d' : Document, d'.package? = d.package? →
        targets d' = .error (.document fault details) d' := by
  cases hp : d.package? with
  | none =>
    refine .inr ⟨.closed, [], fun d' h => ?_⟩
    simp only [targets, bind, EStateM.bind, package_of_none h]
  | some p =>
    have hdoc := document?_spec p PartName.relationships 0
    cases he : p.document? PartName.relationships 0 with
    | error err =>
      rw [he] at hdoc
      refine .inr ⟨.notXml PartName.relationships, [], fun d' h => ?_⟩
      simp only [targets, bind, EStateM.bind, package_of_some h, he, hdoc]
      rfl
    | ok found =>
      refine .inl ?_
      cases found with
      | none =>
        refine ⟨[], fun d' h => ?_⟩
        simp only [targets, bind, EStateM.bind, package_of_some h, he]
        rfl
      | some x =>
        exact ⟨_, fun d' h => by
          simp only [targets, bind, EStateM.bind, package_of_some h, he]
          rfl⟩

theorem targets_of_package {d d' : Document} {l : List (String × String)}
    (h : targets d = .ok l d) (hp : d'.package? = d.package?) : targets d' = .ok l d' := by
  rcases targets_cases d with ⟨l', hl⟩ | ⟨fault, details, he⟩
  · have := (hl d rfl).symm.trans h
    injection this with hll
    exact hll ▸ hl d' hp
  · cases (he d rfl).symm.trans h

variable {d : Document}

theorem reading_targets : Reading targets d (∃ l, targets d = .ok l d)
    fun l d' => d' = d ∧ targets d = .ok l d := by
  rcases targets_cases d with ⟨l, hl⟩ | ⟨fault, details, he⟩
  · exact (meets_of_ok (hl d rfl)).2 ⟨.refl d, fun _ => ⟨rfl, rfl⟩, rfl, hl d rfl⟩
  · have : Meets targets d (fun _ _ => False) fun err d' =>
        d' = d ∧ err = .document fault details := by simp [Meets, he d rfl]
    refine Meets.mono this (fun _ _ h => h.elim) ?_
    rintro err _ ⟨rfl, rfl⟩
    exact ⟨.refl _, ⟨_, _, rfl⟩, fun ⟨l, hl⟩ => by cases (he _ rfl).symm.trans hl⟩

/-- The stories that references lead to have the roots of the parts that these name. Parts in `seen`
have been found before. -/
structure Referred (targets : List (String × String)) (es : List Element) (seen : List String)
    (d : Document) (found : List Story) : Prop where
  source : ∀ s ∈ found, ∃ e ∈ es, ∃ name, partOf targets e = some name ∧
    d.rootOf name = some s.element
  all : ∀ e ∈ es, ∀ name, partOf targets e = some name → name ∈ seen ∨ Settled d name ∧
    ∀ root, d.rootOf name = some root → ∃ s ∈ found, s.element = root

namespace Referred

variable {targets : List (String × String)} {e : Element} {es : List Element} {seen : List String}
  {found : List Story} {name : String} {d' : Document}

theorem reads (h : Referred targets es seen d found) (hr : Reads d d') :
    Referred targets es seen d' found where
  source s hs := by
    obtain ⟨e, he, name, hn, hi⟩ := h.source s hs
    exact ⟨e, he, name, hn, hr.rootOf hi⟩
  all e he name hn := (h.all e he name hn).imp_right fun ⟨hset, hf⟩ =>
    ⟨hset.reads hr, fun root hroot => hf root (hset.rootOf hr hroot)⟩

/-- A reference to no part, or to one that has been found before. -/
theorem skip (h : Referred targets es seen d found)
    (hn : ∀ name, partOf targets e = some name → name ∈ seen) :
    Referred targets (e :: es) seen d found where
  source s hs := by
    obtain ⟨e', he', h⟩ := h.source s hs
    exact ⟨e', List.mem_cons_of_mem _ he', h⟩
  all e' he' name hname := by
    rcases List.mem_cons.1 he' with rfl | he'
    · exact .inl (hn name hname)
    · exact h.all e' he' name hname

/-- A reference to a part that has not been found before. -/
theorem part (more : List Story) (h : Referred targets es (name :: seen) d found)
    (hn : partOf targets e = some name) (hset : Settled d name)
    (hmore : ∀ s ∈ more, d.rootOf name = some s.element)
    (hroot : ∀ root, d.rootOf name = some root → ∃ s ∈ more, s.element = root) :
    Referred targets (e :: es) seen d (more ++ found) where
  source s hs := by
    rcases List.mem_append.1 hs with hs | hs
    · exact ⟨e, List.mem_cons_self, name, hn, hmore s hs⟩
    · obtain ⟨e', he', h⟩ := h.source s hs
      exact ⟨e', List.mem_cons_of_mem _ he', h⟩
  all e' he' name' hname := by
    have hfirst : Settled d name ∧
        ∀ root, d.rootOf name = some root → ∃ s ∈ more ++ found, s.element = root :=
      ⟨hset, fun root hr => (hroot root hr).imp fun s hs => ⟨List.mem_append_left _ hs.1, hs.2⟩⟩
    rcases List.mem_cons.1 he' with rfl | he'
    · exact .inr (Option.some.inj (hn.symm.trans hname) ▸ hfirst)
    · rcases h.all e' he' name' hname with hm | ⟨hset', hs⟩
      · rcases List.mem_cons.1 hm with rfl | hm
        · exact .inr hfirst
        · exact .inl hm
      · exact .inr ⟨hset', fun root hr =>
          (hs root hr).imp fun s hs => ⟨List.mem_append_right _ hs.1, hs.2⟩⟩

end Referred

theorem reading_referred {targets : List (String × String)} {base : String}
    {kind : PageKind → String → StoryKind} : ∀ (es : List Element) (seen : List String)
    {d : Document}, Reading (referred targets base kind seen es) d
      (∀ e ∈ es, ∀ name, partOf targets e = some name → Settled d name) fun found d' =>
        Referred targets es seen d' found
  | [], seen, d => reading_pure ⟨by simp, by simp⟩
  | e :: rest, seen, d => by
    -- The references behind the first one, after `seen` has become `seen'`.
    have later : ∀ (seen' : List String) {d₁ : Document}, Reads d d₁ →
        Reading (referred targets base kind seen' rest) d₁
          (∀ e' ∈ e :: rest, ∀ name, partOf targets e' = some name → Settled d name) _ :=
      fun seen' d₁ hd => (reading_referred rest seen' (d := d₁)).mono
        (fun hs e' he' name hn => (hs e' (List.mem_cons_of_mem _ he') name hn).reads hd)
        fun _ _ _ h => h
    rw [referred]
    cases hl : targets.lookup ((e.tag.attribute? Word.Names.relationId).getD "") with
    | none =>
      have hpart : partOf targets e = none := by simp [partOf, hl]
      dsimp only
      refine reading_report.bind fun _ d₁ hd _ => (later seen hd).mono id fun found d' _ h => ?_
      exact h.skip fun name hn => by cases hpart.symm.trans hn
    | some target =>
      have hpart : partOf targets e = some (String.ofList (PartName.resolve target.toList)) := by
        simp [partOf, hl]
      dsimp only
      generalize String.ofList (PartName.resolve target.toList) = name at hpart
      split
      · next hseen =>
        refine (later seen (.refl d)).mono id fun found d' _ h => h.skip fun name' hn => ?_
        exact Option.some.inj (hpart.symm.trans hn) ▸ hseen
      · refine (reading_partRoot?.mono (fun hs => hs e List.mem_cons_self name hpart)
          fun _ _ _ h => h).bind ?_
        rintro root? d₁ hd ⟨rfl, hset⟩
        cases hroot : d₁.rootOf name with
        | none =>
          refine reading_report.bind fun _ d₂ hd₂ _ =>
            (later (name :: seen) (hd.trans hd₂)).mono id fun found d' hd' h => ?_
          refine h.part [] hpart (hset.reads (hd₂.trans hd')) (by simp) fun root hr => ?_
          cases hroot.symm.trans (hset.rootOf (hd₂.trans hd') hr)
        | some root =>
          refine (later (name :: seen) hd).bind fun found d' hd' h => reading_pure ?_
          have hroot' := hd'.rootOf hroot
          refine h.part [_] hpart (hset.reads hd') (fun s hs => ?_) fun root' hr => ?_
          · rw [List.mem_singleton.1 hs, hroot']
          · exact ⟨_, List.mem_singleton_self _, Option.some.inj (hroot'.symm.trans hr)⟩

theorem Ready.reads {targets : List (String × String)} {d' : Document} (h : Ready targets d)
    (hs : d.Sound) (hr : Reads d d') : Ready targets d' := by
  refine ⟨targets_of_package h.given hr.package, fun root hroot => ?_, fun x hx =>
    (h.notes x hx).reads hr⟩
  obtain ⟨e, -, he⟩ := hs.root?
  obtain rfl := Option.some.inj ((hr.root ▸ hr.element? hs he).symm.trans hroot)
  exact fun base hb e he' name hn => (h.references _ he base hb e he' name hn).reads hr

/-- What is found by the references of a kind. -/
structure ReferredBy (targets : List (String × String)) (base : String) (d : Document)
    (found : List Story) : Prop where
  given : Document.targets d = .ok targets d
  referred : ∃ root, d.forest.element? d.root = some root ∧
    Referred targets (references root base) [] d found

theorem ReferredBy.reads {targets : List (String × String)} {base : String} {d' : Document}
    {found : List Story} (h : ReferredBy targets base d found) (hs : d.Sound) (hr : Reads d d') :
    ReferredBy targets base d' found := by
  obtain ⟨root, hroot, href⟩ := h.referred
  exact ⟨targets_of_package h.given hr.package, root, hr.root ▸ hr.element? hs hroot, href.reads hr⟩

theorem reading_referredBy {base : String} {kind : PageKind → String → StoryKind}
    (hs : d.Sound) (hb : base ∈ referring) :
    Reading (referredBy base kind) d (∃ targets, Ready targets d) fun found d' =>
      ∃ targets, ReferredBy targets base d' found := by
  obtain ⟨root, -, hroot⟩ := hs.root?
  rw [referredBy]
  refine (reading_targets.mono (fun ⟨l, h⟩ => ⟨l, h.given⟩) fun _ _ _ h => h).bind ?_
  rintro targets d' - ⟨hd, ht⟩
  rw [hd]
  simp only [rootElement, Reading, meets_bind, meets_get, meets_pure, hroot]
  refine (reading_referred (references root base) [] (d := d)).mono ?_ ?_
  · rintro ⟨targets', h⟩ e he name hn
    have := h.given.symm.trans ht
    injection this with htt
    exact h.references root hroot base hb e he name (htt ▸ hn)
  · intro found d' hr h
    exact ⟨targets, targets_of_package ht hr.package, root, hr.root ▸ hr.element? hs hroot, h⟩

/-- The body that has been found is that of the root. -/
def BodyFound (d : Document) (found : List Story) : Prop :=
  ∃ root, d.forest.element? d.root = some root ∧ ∀ i, (∃ s ∈ found, s.element = i) ↔
    ∃ b, root.inner.child? Word.Names.body = some b ∧ b.tag.id = i

theorem BodyFound.reads {d' : Document} {found : List Story} (h : BodyFound d found) (hs : d.Sound)
    (hr : Reads d d') : BodyFound d' found := by
  obtain ⟨root, hroot, hb⟩ := h
  exact ⟨root, hr.root ▸ hr.element? hs hroot, hb⟩

theorem reading_body (hs : d.Sound) {settled : Prop} :
    Reading body d settled fun found d' => BodyFound d' found := by
  obtain ⟨root, -, hroot⟩ := hs.root?
  simp only [body, rootElement, Reading, meets_bind, meets_get, meets_pure, hroot, Option.bind_some]
  cases hb : root.inner.child? Word.Names.body with
  | none => exact ⟨.refl d, fun _ => ⟨rfl, rfl⟩, root, hroot, by simp [hb]⟩
  | some b => exact ⟨.refl d, fun _ => ⟨rfl, rfl⟩, root, hroot, by simp [hb]⟩

/-- The notes that have been found are those of a part. -/
structure NotesFound (part : String) (name : Name) (d : Document) (found : List Story) : Prop where
  settled : Settled d part
  iff : ∀ i, (∃ s ∈ found, s.element = i) ↔ ∃ r root e, d.rootOf part = some r ∧
    d.forest.element? r = some root ∧ e ∈ root.inner.children ∧ isNote name e = true ∧ e.tag.id = i

/-- The root of a part that has been read is there. -/
theorem Sound.element?_of_rootOf (hs : d.Sound) {name : String} {r : Nat}
    (h : d.rootOf name = some r) : ∃ x, d.forest.element? r = some x := by
  obtain ⟨part, hpart, rfl⟩ := mem_parts_of_rootOf h
  obtain ⟨x, hx, hxr⟩ := hs.parts part hpart
  exact ⟨x, hs.numbered.element?_eq_some.2 ⟨.inl (Content.children_subset _ x hx), hxr⟩⟩

theorem NotesFound.reads {part : String} {name : Name} {d' : Document} {found : List Story}
    (h : NotesFound part name d found) (hs : d.Sound) (hr : Reads d d') :
    NotesFound part name d' found := by
  refine ⟨h.settled.reads hr, fun i => (h.iff i).trans ⟨?_, ?_⟩⟩
  · rintro ⟨r, root, e, hroot, he, hn⟩
    exact ⟨r, root, e, hr.rootOf hroot, hr.element? hs he, hn⟩
  · rintro ⟨r, root, e, hroot, he, hn⟩
    have hroot' := h.settled.rootOf hr hroot
    obtain ⟨x, hx⟩ := hs.element?_of_rootOf hroot'
    obtain rfl := Option.some.inj ((hr.element? hs hx).symm.trans he)
    exact ⟨r, x, e, hroot', hx, hn⟩

theorem reading_notes {part : String} {name : Name} {kind : Option String → StoryKind} :
    Reading (notes part name kind) d (Settled d part) fun found d' =>
      NotesFound part name d' found := by
  rw [notes]
  refine reading_partRoot?.bind ?_
  rintro root? d' - ⟨rfl, hset⟩
  cases hroot : d'.rootOf part with
  | none => exact reading_pure ⟨hset, by simp [hroot]⟩
  | some r =>
    simp only [Reading, meets_bind, meets_view, meets_pure]
    refine ⟨.refl d', fun _ => ⟨trivial, trivial⟩, hset, fun i => ?_⟩
    cases he : d'.forest.element? r with
    | none => simp [hroot, he]
    | some root => simp [hroot, he, isNote, and_assoc]

/-- The elements that all the sources lead to. -/
theorem source_iff {targets : List (String × String)}
    {headers bodies footers footnotes endnotes : List Story}
    (hh : ReferredBy targets "headerReference" d headers) (hb : BodyFound d bodies)
    (hf : ReferredBy targets "footerReference" d footers)
    (hfn : NotesFound PartName.footnotes Word.Names.footnote d footnotes)
    (hen : NotesFound PartName.endnotes Word.Names.endnote d endnotes) (i : Nat) :
    (∃ s ∈ headers ++ bodies ++ footers ++ footnotes ++ endnotes, s.element = i) ↔
      Source targets d i := by
  obtain ⟨-, root, hroot, hh⟩ := hh
  obtain ⟨-, root', hroot', hf⟩ := hf
  obtain ⟨root'', hroot'', hb⟩ := hb
  obtain rfl := Option.some.inj (hroot.symm.trans hroot')
  obtain rfl := Option.some.inj (hroot.symm.trans hroot'')
  constructor
  · rintro ⟨s, hs, rfl⟩
    simp only [List.mem_append] at hs
    rcases hs with (((hs | hs) | hs) | hs) | hs
    · obtain ⟨e, he, name, hn, hi⟩ := hh.source s hs
      exact .part hroot (by simp [referring]) he hn hi
    · obtain ⟨b, hb, hi⟩ := (hb s.element).1 ⟨s, hs, rfl⟩
      exact .body hroot hb hi
    · obtain ⟨e, he, name, hn, hi⟩ := hf.source s hs
      exact .part hroot (by simp [referring]) he hn hi
    · obtain ⟨r, x, e, hr, he, hm, hi, hid⟩ := (hfn.iff s.element).1 ⟨s, hs, rfl⟩
      exact .note (show (PartName.footnotes, _) ∈ noted by simp [noted]) hr he hm hi hid
    · obtain ⟨r, x, e, hr, he, hm, hi, hid⟩ := (hen.iff s.element).1 ⟨s, hs, rfl⟩
      exact .note (show (PartName.endnotes, _) ∈ noted by simp [noted]) hr he hm hi hid
  · have found : ∀ {l : List Story}, (∃ s ∈ l, s.element = i) →
        (∀ s ∈ l, s ∈ headers ++ bodies ++ footers ++ footnotes ++ endnotes) →
          ∃ s ∈ headers ++ bodies ++ footers ++ footnotes ++ endnotes, s.element = i :=
      fun ⟨s, hs, hi⟩ h => ⟨s, h s hs, hi⟩
    rintro (⟨hr, hbase, he, hn, hi⟩ | ⟨hr, hb', hi⟩ | ⟨hp, hr, he, hm, hi, hid⟩)
    · obtain rfl := Option.some.inj (hroot.symm.trans hr)
      rcases List.mem_pair.1 hbase with rfl | rfl
      · obtain ⟨-, h⟩ := (hh.all _ he _ hn).resolve_left List.not_mem_nil
        exact found (h i hi) fun s hs => by simp [hs]
      · obtain ⟨-, h⟩ := (hf.all _ he _ hn).resolve_left List.not_mem_nil
        exact found (h i hi) fun s hs => by simp [hs]
    · obtain rfl := Option.some.inj (hroot.symm.trans hr)
      exact found ((hb i).2 ⟨_, hb', hi⟩) fun s hs => by simp [hs]
    · rcases List.mem_pair.1 hp with hp | hp
      · obtain ⟨rfl, rfl⟩ := Prod.mk.inj hp
        exact found ((hfn.iff i).2 ⟨_, _, _, hr, he, hm, hi, hid⟩) fun s hs => by simp [hs]
      · obtain ⟨rfl, rfl⟩ := Prod.mk.inj hp
        exact found ((hen.iff i).2 ⟨_, _, _, hr, he, hm, hi, hid⟩) fun s hs => by simp [hs]

/-- After all the sources have been read, nothing is left to be read of them. -/
theorem ready_of_found {targets : List (String × String)}
    {headers footers footnotes endnotes : List Story}
    (hh : ReferredBy targets "headerReference" d headers)
    (hf : ReferredBy targets "footerReference" d footers)
    (hfn : NotesFound PartName.footnotes Word.Names.footnote d footnotes)
    (hen : NotesFound PartName.endnotes Word.Names.endnote d endnotes) : Ready targets d := by
  obtain ⟨ht, root, hroot, hh⟩ := hh
  obtain ⟨-, root', hroot', hf⟩ := hf
  obtain rfl := Option.some.inj (hroot.symm.trans hroot')
  refine ⟨ht, fun root' hr base hbase e he name hn => ?_, fun x hx => ?_⟩
  · obtain rfl := Option.some.inj (hroot.symm.trans hr)
    rcases List.mem_pair.1 hbase with rfl | rfl
    · exact ((hh.all e he name hn).resolve_left List.not_mem_nil).1
    · exact ((hf.all e he name hn).resolve_left List.not_mem_nil).1
  · rcases List.mem_pair.1 hx with rfl | rfl
    · exact hfn.settled
    · exact hen.settled

/-- The stories of a document are the elements that the sources lead to. -/
theorem reading_stories (hs : d.Sound) :
    Reading stories d (∃ targets, Ready targets d) fun found d' => ∃ targets, Ready targets d' ∧
      ∀ i, (∃ s ∈ found, s.element = i) ↔ Source targets d' i := by
  have noteSettled : ∀ {d' : Document} (x : String × Name), x ∈ noted → Reads d d' →
      (∃ targets, Ready targets d) → Settled d' x.1 :=
    fun x hx hr ⟨_, h⟩ => (h.notes x hx).reads hr
  rw [stories]
  refine (reading_referredBy hs (by simp [referring])).bind ?_
  rintro headers d₁ r₁ ⟨targets, hh⟩
  have hs₁ := r₁.sound hs
  refine (reading_body hs₁).bind fun bodies d₂ r₂ hb => ?_
  have hs₂ := r₂.sound hs₁
  refine ((reading_referredBy hs₂ (by simp [referring])).mono
    (fun ⟨l, h⟩ => ⟨l, h.reads hs (r₁.trans r₂)⟩) fun _ _ _ h => h).bind ?_
  rintro footers d₃ r₃ ⟨targets₃, hf⟩
  have hs₃ := r₃.sound hs₂
  refine (reading_notes.mono (noteSettled (PartName.footnotes, Word.Names.footnote)
    (by simp [noted]) (r₁.trans (r₂.trans r₃))) fun _ _ _ h => h).bind fun footnotes d₄ r₄ hfn => ?_
  have hs₄ := r₄.sound hs₃
  refine (reading_notes.mono (noteSettled (PartName.endnotes, Word.Names.endnote)
    (by simp [noted]) (r₁.trans (r₂.trans (r₃.trans r₄)))) fun _ _ _ h => h).bind
      fun endnotes d₅ r₅ hen => reading_pure ?_
  -- What has been found on the way is still the case.
  have hh := hh.reads hs₁ (r₂.trans (r₃.trans (r₄.trans r₅)))
  have hf := hf.reads hs₃ (r₄.trans r₅)
  have htt := hh.given.symm.trans hf.given
  injection htt with htt
  subst htt
  exact ⟨targets, ready_of_found hh hf (hfn.reads hs₄ r₅) hen, source_iff hh
    (hb.reads hs₂ (r₃.trans (r₄.trans r₅))) hf (hfn.reads hs₄ r₅) hen⟩

end MailMerge.Document
