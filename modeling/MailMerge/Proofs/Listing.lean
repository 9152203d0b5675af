import MailMerge.Proofs.Runs
import MailMerge.Proofs.Scans

/-!
# What is listed once

The stories of one kind never have a paragraph in common, whatever the references say: each part is
a header once, and a footer once, and the notes of a part are different children of its root. Stories
of two kinds have paragraphs in common exactly if they are of one part (`Enumerated.nodup_iff`), as
when a part is referred to as a header and as a footer.
-/

namespace MailMerge

open Xml Word

namespace StoryKind

/-- The part that all stories of a kind are in, if there is one. -/
def home? : StoryKind → Option String
  | header .. | footer .. => none
  | body => some PartName.main
  | footnote _ => some PartName.footnotes
  | endnote _ => some PartName.endnotes

theorem text_eq_of_home? {k k' : StoryKind} {name : String} (h : k.home? = some name)
    (h' : k'.home? = some name) : k.text = k'.text := by
  have : PartName.main ≠ PartName.footnotes ∧ PartName.main ≠ PartName.endnotes ∧
      PartName.footnotes ≠ PartName.endnotes := by decide
  cases k <;> cases k' <;> simp_all [home?, text]

end StoryKind

/-- Whether two stories of different kinds show paragraphs of one part. -/
def Story.Clash (f : Forest) (s t : Story) : Prop :=
  s.kind.text ≠ t.kind.text ∧ s.part = t.part ∧ s.paragraphs f ≠ [] ∧ t.paragraphs f ≠ []

theorem Story.nodup_paragraphs {f : Forest} (hf : f.Numbered) (s : Story) :
    (s.paragraphs f).Nodup := by
  unfold paragraphs named
  split
  · next e he => exact (hf.nodup_element (hf.element?_eq_some.1 he).1).of_map.filter _
  · exact .nil

/-- Different children have no number in common. -/
theorem Xml.Content.eq_of_children {c : Content} (hc : c.ids.Nodup) {e e' : Element} {i : Nat}
    (he : e ∈ c.children) (he' : e' ∈ c.children) (hi : i ∈ (element e.tag e.inner nil).ids)
    (hi' : i ∈ (element e'.tag e'.inner nil).ids) : e = e' := by
  have sub : ∀ {c : Content} {x : Element}, x ∈ c.children →
      i ∈ (element x.tag x.inner nil).ids → i ∈ c.ids := by
    rintro c x hx hi
    obtain ⟨front, rest, rfl⟩ := exists_of_mem_children hx
    simp only [ids_append, ids_element, List.mem_append, List.mem_cons] at hi ⊢
    tauto
  induction c with
  | nil => cases he
  | text _ _ ih => exact ih hc he he'
  | markup _ _ ih => exact ih hc he he'
  | element tag inner rest _ ih =>
    have hnd : ((element tag inner nil).ids ++ rest.ids).Nodup := by simpa using hc
    obtain ⟨-, hrest, hne⟩ := List.nodup_append.1 hnd
    rcases List.mem_cons.1 he with rfl | he <;> rcases List.mem_cons.1 he' with rfl | he'
    · rfl
    · exact absurd rfl (hne i hi i (sub he' hi'))
    · exact absurd rfl (hne i hi' i (sub he hi))
    · exact ih hrest he he'

namespace Document

/-- What holds of a document that has just been opened: its root is that of the main part. -/
structure Opened (d : Document) : Prop extends d.Sound where
  main : d.rootOf PartName.main = some d.root
  distinct : d.Distinct

variable {d d' : Document}

theorem Opened.reads (h : d.Opened) (hr : Reads d d') : d'.Opened where
  toSound := hr.sound h.toSound
  main := by rw [hr.rootOf h.main, hr.root]
  distinct := hr.distinct h.toFiled h.distinct

theorem opened_openArchive {path? : Option Files.Path} {source : Archive.Source}
    {bytes : Text.Bytes} : Meets (openArchive source bytes) (unread path?) (fun _ d => d.Opened)
      fun _ _ => True := by
  have hmain : Meets (openArchive source bytes) (unread path?)
      (fun _ d => d.rootOf PartName.main = some d.root ∧ d.Distinct) fun _ _ => True := ?_
  refine Meets.mono (sound_openArchive.and hmain) ?_ fun _ _ _ => trivial
  · rintro _ d ⟨hs, hm, hd⟩
    exact ⟨hs, hm, hd⟩
  rw [openArchive]
  split
  · exact trivial
  · simp only [meets_bind, meets_modify, meets_get]
    refine Meets.mono reading_partRoot? ?_ fun _ _ _ => trivial
    rintro root? d ⟨hr, -, hroot, -⟩
    split
    · exact trivial
    · next root =>
      simp only [meets_bind, meets_modify, meets_view]
      split
      · exact ⟨hroot.symm, hr.distinct ⟨numbered_empty, by simp [unread]⟩ .nil⟩
      · exact trivial

theorem Distinct.eq_of_rootOf (h : d.Distinct) {name name' : String} {root : Nat}
    (hn : d.rootOf name = some root) (hn' : d.rootOf name' = some root) : name = name' := by
  obtain ⟨part, hp, rfl⟩ := Option.map_eq_some_iff.1 hn
  obtain ⟨part', hp', hr⟩ := Option.map_eq_some_iff.1 hn'
  obtain rfl := List.inj_on_of_nodup_map h (List.mem_of_find?_eq_some hp')
    (List.mem_of_find?_eq_some hp) hr
  have h₁ := List.find?_some hp
  have h₂ := List.find?_some hp'
  simp only [decide_eq_true_eq] at h₁ h₂
  exact h₁.symm.trans h₂

theorem Filed.root_of {name : String} {root : Nat} (h : d.Filed) (hn : d.rootOf name = some root) :
    ∃ e ∈ d.forest.attached.children, e.tag.id = root ∧ d.forest.element? root = some e := by
  obtain ⟨part, hp, rfl⟩ := mem_parts_of_rootOf hn
  obtain ⟨e, he, hi⟩ := h.parts part hp
  exact ⟨e, he, hi, h.numbered.element?_eq_some.2 ⟨.inl (Content.children_subset _ e he), hi⟩⟩

/-- Where a story stands: it is the root of its part, or one of the children of that. -/
structure Placed (d : Document) (s : Story) (root e : Element) : Prop where
  part : d.rootOf s.part = some root.tag.id
  rooted : root ∈ d.forest.attached.children
  id : e.tag.id = s.element
  whole : s.kind.home? = none → e = root
  inside : ∀ name, s.kind.home? = some name → s.part = name ∧ e ∈ root.inner.children

/-- Stories of the given kinds as a document lists them. -/
structure Enumerated (kinds : List String) (d : Document) (found : List Story) : Prop where
  kind : ∀ s ∈ found, s.kind.text ∈ kinds
  placed : ∀ s ∈ found, ∃ root e, d.Placed s root e
  once : found.Pairwise fun s t => s.kind.text = t.kind.text → s.part = t.part →
    (∃ name, s.kind.home? = some name) ∧ s.element ≠ t.element

variable {kinds kinds' : List String} {found found' : List Story}

theorem Enumerated.reads (h : Enumerated kinds d found) (hr : Reads d d') :
    Enumerated kinds d' found := by
  refine ⟨h.kind, fun s hs => ?_, h.once⟩
  obtain ⟨root, e, hp⟩ := h.placed s hs
  exact ⟨root, e, hr.rootOf hp.part, hr.children hp.rooted, hp.id, hp.whole, hp.inside⟩

theorem Enumerated.append (h : Enumerated kinds d found) (h' : Enumerated kinds' d found')
    (hk : ∀ k ∈ kinds, k ∉ kinds') : Enumerated (kinds ++ kinds') d (found ++ found') where
  kind s hs := List.mem_append.2 ((List.mem_append.1 hs).imp (h.kind s) (h'.kind s))
  placed s hs := (List.mem_append.1 hs).elim (h.placed s) (h'.placed s)
  once := List.pairwise_append.2 ⟨h.once, h'.once, fun s hs t ht he =>
    absurd (h'.kind t ht) (he ▸ hk _ (h.kind s hs))⟩

theorem Reads.logged (d : Document) (log : Log) : Reads d { d with log } :=
  Merge.SameButLog.reads (.refl d) rfl

/-- Work that lists stories of the given kinds. -/
abbrev Lists (kinds : List String) (x : Work (List Story)) (d : Document) : Prop :=
  Meets x d (fun found d' => Reads d d' ∧ Enumerated kinds d' found) fun _ _ => True

theorem lists_referred {targets : List (String × String)} {base title : String}
    {kind : PageKind → String → StoryKind}
    (hk : ∀ use relation, (kind use relation).text = title ∧ (kind use relation).home? = none) :
    ∀ (es : List Element) (seen : List String) {d : Document}, d.Opened →
      Meets (referred targets base kind seen es) d (fun found d' => Reads d d' ∧
        Enumerated [title] d' found ∧ ∀ s ∈ found, s.part ∉ seen) fun _ _ => True
  | [], seen, d, _ => ⟨.refl d, ⟨by simp, by simp, .nil⟩, by simp⟩
  | e :: rest, seen, d, hd => by
    rw [referred]
    split
    · have h₁ := Reads.logged d
      rw [meets_bind, meets_report]
      exact (lists_referred hk rest seen (hd.reads (h₁ _))).mono
        (fun _ _ h => ⟨(h₁ _).trans h.1, h.2⟩) fun _ _ h => h
    · next target _ =>
      dsimp only
      generalize String.ofList (PartName.resolve target.toList) = name
      split
      · exact lists_referred hk rest seen hd
      · next hseen =>
        -- The induction carries the names that have been seen: no later story has one of them.
        rw [meets_bind]
        refine Meets.mono reading_partRoot? ?_ fun _ _ _ => trivial
        rintro root? d₁ ⟨h₁, -, hroot, -⟩
        split
        · have h₂ := Reads.logged d₁
          rw [meets_bind, meets_report]
          refine (lists_referred hk rest (name :: seen) (hd.reads (h₁.trans (h₂ _)))).mono ?_
            fun _ _ h => h
          rintro found d' ⟨h, hf, hs⟩
          exact ⟨h₁.trans ((h₂ _).trans h), hf, fun s hm hin =>
            hs s hm (List.mem_cons_of_mem _ hin)⟩
        · next root =>
          rw [meets_bind]
          refine (lists_referred hk rest (name :: seen) (hd.reads h₁)).mono ?_ fun _ _ h => h
          rintro found d' ⟨h, hf, hs⟩
          obtain ⟨htitle, hhome⟩ :=
            hk (((e.tag.attribute? Names.type).map PageKind.ofText).getD .default)
              ((e.tag.attribute? Names.relationId).getD "")
          have hroot' := h.rootOf hroot.symm
          obtain ⟨x, hx, hi, -⟩ := (hd.reads (h₁.trans h)).toFiled.root_of hroot'
          refine ⟨h₁.trans h, ⟨?_, ?_, ?_⟩, ?_⟩
          · exact List.forall_mem_cons.2 ⟨by simp [htitle], hf.kind⟩
          · exact List.forall_mem_cons.2 ⟨⟨x, x, by rw [hroot', hi], hx, hi, fun _ => rfl,
              fun name hn => by simp [hhome] at hn⟩, hf.placed⟩
          · refine List.pairwise_cons.2 ⟨fun t ht _ hp => ?_, hf.once⟩
            exact absurd (hp ▸ List.mem_cons_self) (hs t ht)
          · exact List.forall_mem_cons.2 ⟨hseen, fun s hm hin =>
              hs s hm (List.mem_cons_of_mem _ hin)⟩

theorem lists_referredBy {base title : String} {kind : PageKind → String → StoryKind}
    (hk : ∀ use relation, (kind use relation).text = title ∧ (kind use relation).home? = none)
    (hd : d.Opened) : Lists [title] (referredBy base kind) d := by
  rw [referredBy, Lists, meets_bind]
  refine Meets.mono reading_targets ?_ fun _ _ _ => trivial
  rintro targets _ ⟨-, -, rfl, -⟩
  simp only [rootElement, meets_bind, meets_get, meets_pure]
  split
  · exact ⟨.refl _, by simp, by simp, .nil⟩
  · exact (lists_referred hk _ [] hd).mono (fun _ _ h => ⟨h.1, h.2.1⟩) fun _ _ h => h

theorem lists_body (hd : d.Opened) : Lists ["body"] body d := by
  obtain ⟨root, hroot, he⟩ := hd.root?
  obtain ⟨-, hid⟩ := hd.numbered.element?_eq_some.1 he
  simp only [body, rootElement, Lists, meets_bind, meets_get, meets_pure, he, Option.bind_some]
  split
  · next b hb =>
    refine ⟨.refl d, by simp [StoryKind.text], ?_, List.pairwise_singleton _ _⟩
    rintro s hs
    obtain rfl := List.mem_singleton.1 hs
    refine ⟨root, b, by rw [hd.main, hid], hroot, rfl, by simp [StoryKind.home?], ?_⟩
    rintro name ⟨⟩
    exact ⟨rfl, List.mem_of_find?_eq_some hb⟩
  · exact ⟨.refl d, by simp, by simp, .nil⟩

theorem lists_notes {part title : String} {name : Name} {kind : Option String → StoryKind}
    (hk : ∀ number, (kind number).text = title ∧ (kind number).home? = some part)
    (hd : d.Opened) : Lists [title] (notes part name kind) d := by
  rw [notes, Lists, meets_bind]
  refine Meets.mono reading_partRoot? ?_ fun _ _ _ => trivial
  rintro root? d' ⟨hr, -, hroot, -⟩
  split
  · exact ⟨hr, by simp, by simp, .nil⟩
  · next r =>
    have hd' := hd.reads hr
    obtain ⟨root, hm, hid, he⟩ := hd'.toFiled.root_of hroot.symm
    simp only [meets_bind, meets_view, meets_pure, he, Option.map_some, Option.getD_some]
    refine ⟨hr, ?_, ?_, ?_⟩
    · intro s hs
      obtain ⟨e, -, rfl⟩ := List.mem_map.1 hs
      simp [hk]
    · intro s hs
      obtain ⟨e, hmem, rfl⟩ := List.mem_map.1 hs
      refine ⟨root, e, by rw [← hroot, hid], hm, rfl, by simp [hk], fun name hn => ?_⟩
      rw [(hk _).2] at hn
      exact ⟨Option.some.inj hn, (List.mem_filter.1 hmem).1⟩
    · have hnd : (root.inner.children.map (·.tag.id)).Nodup :=
        (Content.nodup_inner hd'.numbered.attached (Content.children_subset _ _ hm)).sublist
          ((Content.children_sublist _).map _)
      refine List.pairwise_map.2 (((List.pairwise_map.1 hnd).sublist List.filter_sublist).imp ?_)
      exact fun hne _ _ => ⟨⟨_, (hk _).2⟩, hne⟩

theorem lists_headers (hd : d.Opened) : Lists ["header"] headers d :=
  lists_referredBy (fun _ _ => ⟨rfl, rfl⟩) hd

theorem lists_footers (hd : d.Opened) : Lists ["footer"] footers d :=
  lists_referredBy (fun _ _ => ⟨rfl, rfl⟩) hd

theorem lists_footnotes (hd : d.Opened) : Lists ["footnote"] footnotes d :=
  lists_notes (fun _ => ⟨rfl, rfl⟩) hd

theorem lists_endnotes (hd : d.Opened) : Lists ["endnote"] endnotes d :=
  lists_notes (fun _ => ⟨rfl, rfl⟩) hd

theorem lists_stories (hd : d.Opened) :
    Lists ["header", "body", "footer", "footnote", "endnote"] stories d := by
  rw [stories, Lists, meets_bind]
  refine (lists_headers hd).mono ?_ fun _ _ _ => trivial
  rintro headers d₁ ⟨r₁, h₁⟩
  have hd₁ := hd.reads r₁
  rw [meets_bind]
  refine (lists_body hd₁).mono ?_ fun _ _ _ => trivial
  rintro bodies d₂ ⟨r₂, h₂⟩
  have hd₂ := hd₁.reads r₂
  rw [meets_bind]
  refine (lists_footers hd₂).mono ?_ fun _ _ _ => trivial
  rintro footers d₃ ⟨r₃, h₃⟩
  have hd₃ := hd₂.reads r₃
  rw [meets_bind]
  refine (lists_footnotes hd₃).mono ?_ fun _ _ _ => trivial
  rintro footnotes d₄ ⟨r₄, h₄⟩
  have hd₄ := hd₃.reads r₄
  rw [meets_bind]
  refine (lists_endnotes hd₄).mono ?_ fun _ _ _ => trivial
  rintro endnotes d₅ ⟨r₅, h₅⟩
  have r₃₅ := r₄.trans r₅
  have r₂₅ := r₃.trans r₃₅
  have r₁₅ := r₂.trans r₂₅
  refine ⟨r₁.trans r₁₅, ?_⟩
  exact ((((h₁.reads r₁₅).append (h₂.reads r₂₅) (by decide)).append (h₃.reads r₃₅)
    (by decide)).append (h₄.reads r₅) (by decide)).append h₅ (by decide)

variable {s t : Story} {root root' e e' : Element}

theorem Placed.element? (hp : d.Placed s root e) (hf : d.forest.Numbered) :
    d.forest.element? s.element = some e := by
  refine hf.element?_eq_some.2 ⟨.inl ?_, hp.id⟩
  have hroot := Content.children_subset _ _ hp.rooted
  cases hk : s.kind.home? with
  | none => exact hp.whole hk ▸ hroot
  | some name => exact Content.mem_trans hroot (Content.children_subset _ _ (hp.inside name hk).2)

theorem Placed.paragraphs (hp : d.Placed s root e) (hf : d.forest.Numbered) :
    s.paragraphs d.forest = (Content.element e.tag e.inner .nil).named Names.paragraph := by
  simp [Story.paragraphs, Story.named, hp.element? hf]

/-- What a story shows is in the tree of its part. -/
theorem Placed.subset (hp : d.Placed s root e) :
    (Content.element e.tag e.inner .nil).ids ⊆ (Content.element root.tag root.inner .nil).ids := by
  cases hk : s.kind.home? with
  | none => rw [hp.whole hk]; exact List.Subset.refl _
  | some name =>
    obtain ⟨front, rest, hr⟩ := Content.exists_of_mem_children (hp.inside name hk).2
    intro i hi
    simp only [Content.ids_element, hr, Content.ids_append, List.mem_cons, List.mem_append] at hi ⊢
    tauto

/-- Stories of one part of which one is the whole part have all paragraphs of the other one. -/
theorem Placed.common (hd : d.Opened) (hs : d.Placed s root e) (ht : d.Placed t root' e')
    (hp : s.part = t.part) (hw : s.kind.home? = none) :
    t.paragraphs d.forest ⊆ s.paragraphs d.forest := by
  have hf := hd.numbered
  obtain rfl : root = root' := by
    have hid : root.tag.id = root'.tag.id := Option.some.inj (hs.part.symm.trans (hp ▸ ht.part))
    exact Content.eq_of_id hf.attached (Content.children_subset _ _ hs.rooted)
      (Content.children_subset _ _ ht.rooted) hid
  obtain rfl := hs.whole hw
  rw [hs.paragraphs hf, ht.paragraphs hf]
  intro p h
  obtain ⟨hm, hn⟩ := List.mem_filter.1 h
  refine List.mem_filter.2 ⟨?_, hn⟩
  cases hk : t.kind.home? with
  | none => exact ht.whole hk ▸ hm
  | some name =>
    have hc := Content.children_subset _ _ (ht.inside name hk).2
    rw [Content.mem_element_nil] at hm ⊢
    rcases hm with rfl | hm
    · exact .inr hc
    · exact .inr (Content.mem_trans hc hm)

/-- Stories have a paragraph in common exactly if they are of one part and of different kinds. -/
theorem Placed.disjoint_iff (hd : d.Opened) (hs : d.Placed s root e) (ht : d.Placed t root' e')
    (once : s.kind.text = t.kind.text → s.part = t.part →
      (∃ name, s.kind.home? = some name) ∧ s.element ≠ t.element) :
    List.Disjoint (s.paragraphs d.forest) (t.paragraphs d.forest) ↔ ¬Story.Clash d.forest s t := by
  have hf := hd.numbered
  constructor
  · -- The stories of a part are all of it, or inside of it: one of them has the other one.
    rintro hdis ⟨hk, hp, hsne, htne⟩
    cases hks : s.kind.home? with
    | none =>
      obtain ⟨p, hm⟩ := List.exists_mem_of_ne_nil _ htne
      exact hdis (hs.common hd ht hp hks hm) hm
    | some name =>
      cases hkt : t.kind.home? with
      | none =>
        obtain ⟨p, hm⟩ := List.exists_mem_of_ne_nil _ hsne
        exact hdis hm (ht.common hd hs hp.symm hkt hm)
      | some name' =>
        have := (hs.inside name hks).1.symm.trans (hp.trans (ht.inside name' hkt).1)
        exact hk (StoryKind.text_eq_of_home? hks (this ▸ hkt))
  · -- A common paragraph is in one root, and in that in one child.
    intro hc p hps hpt
    have hps' := hs.paragraphs hf ▸ hps
    have hpt' := ht.paragraphs hf ▸ hpt
    have his := Content.id_mem_ids (List.mem_filter.1 hps').1
    have hit := Content.id_mem_ids (List.mem_filter.1 hpt').1
    obtain rfl := Content.eq_of_children hf.attached hs.rooted ht.rooted (hs.subset his)
      (ht.subset hit)
    have hpart : s.part = t.part := hd.distinct.eq_of_rootOf hs.part ht.part
    have hkind : s.kind.text = t.kind.text := by
      by_contra hk
      exact hc ⟨hk, hpart, List.ne_nil_of_mem hps, List.ne_nil_of_mem hpt⟩
    obtain ⟨⟨name, hn⟩, hne⟩ := once hkind hpart
    obtain ⟨name', hn'⟩ : ∃ name', t.kind.home? = some name' := by
      revert hn hkind
      cases s.kind <;> cases t.kind <;> simp [StoryKind.home?, StoryKind.text]
    have hnd := Content.nodup_inner hf.attached (Content.children_subset _ _ hs.rooted)
    obtain rfl := Content.eq_of_children hnd (hs.inside name hn).2 (ht.inside name' hn').2 his hit
    exact hne (hs.id.symm.trans ht.id)

theorem Enumerated.nodup_iff (hd : d.Opened) (h : Enumerated kinds d found) :
    (Merge.listing d.forest found).Nodup ↔
      found.Pairwise fun s t => ¬Story.Clash d.forest s t := by
  rw [Merge.listing, List.nodup_flatMap, and_iff_right fun s _ => s.nodup_paragraphs hd.numbered]
  have pair : ∀ {s t}, s ∈ found → t ∈ found → _ → (_ ↔ _) := fun {s t} hs ht once => by
    obtain ⟨root, e, hs⟩ := h.placed s hs
    obtain ⟨root', e', ht⟩ := h.placed t ht
    exact hs.disjoint_iff hd ht once
  constructor
  · intro hp
    exact (h.once.and hp).imp_of_mem fun hs ht h => (pair hs ht h.1).1 h.2
  · intro hp
    exact (h.once.and hp).imp_of_mem fun hs ht h => (pair hs ht h.1).2 h.2

end Document

/-- What stories are in is attached. -/
theorem Document.Source.attached {targets : List (String × String)} {d : Document} {i : Nat}
    (hs : d.Sound) (h : Document.Source targets d i) :
    ∃ e ∈ d.forest.attached.elements, e.tag.id = i := by
  have rooted : ∀ {r : Nat} {root : Element}, d.forest.element? r = some root →
      (∃ e ∈ d.forest.attached.children, e.tag.id = r) → root ∈ d.forest.attached.elements := by
    rintro _ root hr ⟨e, he, rfl⟩
    have hm := Content.children_subset _ e he
    obtain rfl := Option.some.inj ((hs.numbered.element?_of_has (.inl hm)).symm.trans hr)
    exact hm
  cases h with
  | part _ _ _ _ hi =>
    obtain ⟨e, he, hid, -⟩ := hs.toFiled.root_of hi
    exact ⟨e, Content.children_subset _ e he, hid⟩
  | body hr hb hi =>
    exact ⟨_, Content.mem_trans (rooted hr hs.root)
      (Content.children_subset _ _ (List.mem_of_find?_eq_some hb)), hi⟩
  | note _ hr he hn _ hid =>
    obtain ⟨e, hm, hei, -⟩ := hs.toFiled.root_of hr
    exact ⟨_, Content.mem_trans (rooted he ⟨e, hm, hei⟩) (Content.children_subset _ _ hn), hid⟩

namespace Merge

theorem attached_of_listing {d d₁ : Document} {found : List Story} (hs : d.Sound)
    (hfound : Document.stories d = .ok found d₁) {p : Element}
    (hp : p ∈ listing d₁.forest found) : p ∈ d₁.forest.attached.elements := by
  obtain ⟨hr, -, targets, -, hsource⟩ := Meets.of_ok (Document.reading_stories hs) hfound
  have hs₁ := hr.sound hs
  obtain ⟨s, hm, hp⟩ := List.mem_flatMap.1 hp
  obtain ⟨e, he, hpe, -⟩ := Story.has_of_named hp
  obtain ⟨x, hx, hid⟩ := ((hsource s.element).1 ⟨s, hm, rfl⟩).attached hs₁
  have hxe : d₁.forest.element? s.element = some x :=
    hid ▸ hs₁.numbered.element?_of_has (.inl hx)
  obtain rfl := Option.some.inj (he.symm.trans hxe)
  exact hpe.elim (fun h => h ▸ hx) fun h => Content.mem_trans hx h

/-- What is planned is found in attached paragraphs. -/
theorem found_of_planned {fields : FieldMap} {d d₁ : Document} {found : List Story} (hs : d.Sound)
    (hfound : Document.stories d = .ok found d₁) : ∀ s ∈ planned fields d₁.forest found,
      ∃ p ∈ d₁.forest.attached.elements, p.tag.name = Names.paragraph ∧
        p.tag.id = s.tag.paragraph ∧ s.tag.found ∈ Construct.scan (Paragraph.text p) := by
  have hf := ((Meets.of_ok (Document.reading_stories hs) hfound).1.sound hs).numbered
  intro s hm
  obtain ⟨t, ht, hr⟩ := List.mem_filterMap.1 hm
  obtain ⟨p, hp, htp⟩ := List.mem_flatMap.1 ht
  obtain ⟨f, hfs, rfl⟩ := List.mem_map.1 htp
  rw [resolved?_tag hr]
  exact ⟨p, attached_of_listing hs hfound hp, (mem_listing hf hp).2, rfl, hfs⟩

/-- The tags of paragraphs that are listed once are listed once. -/
theorem nodup_tags {f : Forest} {found : List Story} (hf : f.Numbered)
    (h : (listing f found).Nodup) : ((listing f found).flatMap tagsOf).Nodup := by
  refine List.nodup_flatMap.2 ⟨fun p _ => ?_, ?_⟩
  · exact (Construct.nodup_scan _).map fun a b hab => by simpa using hab
  · refine h.imp_of_mem fun {p q} hp hq hne t htp htq => hne ?_
    obtain ⟨_, -, rfl⟩ := List.mem_map.1 htp
    obtain ⟨_, -, he⟩ := List.mem_map.1 htq
    exact hf.eq_of_id (mem_listing hf hp).1 (mem_listing hf hq).1 (congrArg Tagged.paragraph he).symm

/-- What is listed once of a document that has been opened. The paragraphs of all stories are
different if and only if no part is a story of two kinds that both show paragraphs; then no tag is
found twice either. -/
theorem listed_once (path? : Option Files.Path) (source : Archive.Source) (bytes : Text.Bytes) :
    Meets (do Document.openArchive source bytes; Document.stories) (Document.unread path?)
      (fun found d =>
        ((listing d.forest found).Nodup ↔ found.Pairwise fun s t => ¬Story.Clash d.forest s t) ∧
          ((listing d.forest found).Nodup → ((listing d.forest found).flatMap tagsOf).Nodup))
      fun _ _ => True := by
  rw [meets_bind]
  refine Document.opened_openArchive.mono (fun _ d hd => ?_) fun _ _ h => h
  refine (Document.lists_stories hd).mono ?_ fun _ _ h => h
  rintro found d' ⟨hr, hl⟩
  have hd' := hd.reads hr
  exact ⟨hl.nodup_iff hd', nodup_tags hd'.numbered⟩

end Merge

end MailMerge
