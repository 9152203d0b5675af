import MailMerge.Proofs.Operations
import MailMerge.Proofs.Simultaneous

/-!
# What is listed after a merge

A merge brings up no references but copies of those in the properties of paragraphs, so the stories
of the merged document come from where they came from before, and nothing is left to be read
(`Document.Ready.follows`). What they list of the paragraphs that have been there before, they have
listed before (`Follows.listed`).
-/

namespace MailMerge.Word

open MailMerge.Xml

/-! ## References -/

/-- The names of the elements that lead to headers and footers. -/
def referenceNames : List Name := Document.referring.map name

theorem notMem_referenceNames : ∀ n ∈ referenceNames, n ∉ Names.showing ∧ n ≠ Names.run ∧
    n ≠ Names.text ∧ n ∉ [Names.paragraph, Names.runProperties] := by decide

/-- Whether a trail is that of a reference of a section. -/
def Refers : List Key → Prop
  | k :: m :: _ => k.name ∈ referenceNames ∧ m.name = Names.section_
  | _ => False

theorem Refers.head {k : Key} : ∀ {u : List Key}, Refers (k :: u) → k.name ∈ referenceNames
  | _ :: _, h => h.1

/-- Neither a list item nor the properties of its run are a section or a reference, so a reference
that is copied with them is a copy of one. -/
theorem Refers.copy {w w' u : List Key} {i : Key} (h : Refers (w ++ i :: u))
    (hw : w.map Key.face = w'.map Key.face)
    (hi : i.name ∈ [Names.paragraph, Names.runProperties]) (v : List Key) :
    Refers (w' ++ v) ∧ (w' ++ v).head?.map Key.face = (w ++ i :: u).head?.map Key.face := by
  rcases w with _ | ⟨x, _ | ⟨y, w⟩⟩
  · exact absurd hi (notMem_referenceNames _ h.head).2.2.2
  · exact absurd (h.2 ▸ hi) (by decide)
  · obtain ⟨x', t, rfl, hx, ht⟩ := List.map_eq_cons_iff.1 hw.symm
    obtain ⟨y', t, rfl, hy, -⟩ := List.map_eq_cons_iff.1 ht
    have hxn : x'.face.name = x.face.name := congrArg Key.name hx
    have hyn : y'.face.name = y.face.name := congrArg Key.name hy
    have hk : x.name ∈ referenceNames := h.1
    exact ⟨⟨hxn ▸ hk, hyn.trans h.2⟩, congrArg some hx⟩

/-- A reference that comes up below a root is a copy of one that has been below this root. -/
theorem Made.reference {ts : List (List Key)} {t : List Key} {root : Key} (h : Made ts t)
    (hroot : root.name ≠ Names.paragraph) (ht : Refers t) (hl : t.getLast? = some root) :
    ∃ t' ∈ ts, Refers t' ∧ t'.getLast? = some root ∧
      t'.head?.map Key.face = t.head?.map Key.face := by
  -- A list item is not the root, so the trails that it is made of have the same root.
  have last : ∀ {w w' u : List Key} {i k : Key}, i.name = Names.paragraph →
      (w ++ i :: u).getLast? = some root → (w' ++ k :: u).getLast? = some root := by
    rintro w w' (_ | ⟨x, u⟩) i k hi hl
    · obtain rfl : i = root := by simpa using hl
      exact absurd hi hroot
    · simpa using hl
  induction h with
  | old hm => exact ⟨_, hm, ht, hl, rfl⟩
  | written _ _ _ hk' => exact absurd hk' (notMem_referenceNames _ ht.head).1
  | item _ _ hw _ hi _ ih =>
    obtain ⟨ht', hface⟩ := ht.copy hw (by simp [hi]) _
    obtain ⟨t', hm, ht', hl', he⟩ := ih ht' (last hi hl)
    exact ⟨t', hm, ht', hl', he.trans hface⟩
  | run _ _ _ hr => exact absurd hr (notMem_referenceNames _ ht.head).2.1
  | shown _ _ _ _ hx => exact absurd hx (notMem_referenceNames _ ht.head).1
  | @formatting k i r r' x x' w w' v u _ _ hw _ hi _ _ hx hx' _ ih =>
    have hxn : x.name = Names.runProperties := (congrArg Key.name hx).trans hx'
    obtain ⟨ht', hface⟩ := ht.copy hw (by simp [hxn]) (x' :: r' :: (v ++ k :: u))
    have hl' : (w' ++ x' :: r' :: (v ++ k :: u)).getLast? = some root := by
      have hl : ((w ++ [x, r]) ++ i :: u).getLast? = some root := by simpa using hl
      have hl' : ((w' ++ x' :: r' :: v) ++ k :: u).getLast? = some root := last hi hl
      simpa using hl'
    obtain ⟨t', hm, ht', hl', he⟩ := ih ht' hl'
    exact ⟨t', hm, ht', hl', he.trans hface⟩

variable {f : Forest} {e root : Element} {u v : List Key}

theorem root_suffix_iff {k : Key} {u : List Key} : [k] <:+ u ↔ u.getLast? = some k := by
  constructor
  · rintro ⟨w, rfl⟩
    simp
  · intro h
    obtain ⟨w, rfl⟩ := List.getLast?_eq_some_iff.1 h
    exact ⟨w, rfl⟩

/-- The references below a root, told by their trails. -/
theorem mem_references_iff (hf : f.Numbered) (hr : root ∈ f.attached.children) {base : String}
    (hb : base ∈ Document.referring) : e ∈ Document.references root base ↔
      f.Has e ∧ e.tag.name = name base ∧ ∃ v, key e.tag :: v ∈ trails [] f.attached ∧
        Refers (key e.tag :: v) ∧ (key e.tag :: v).getLast? = some (key root.tag) := by
  have hroot : f.Has root := .inl (Content.children_subset _ _ hr)
  have htop : [key root.tag] ∈ trails [] f.attached := trails_of_child hr []
  simp only [Document.references, Content.named, List.mem_flatMap, List.mem_filter,
    decide_eq_true_eq]
  constructor
  · rintro ⟨m, ⟨hm, hmn⟩, he, hn⟩
    obtain ⟨hmf, v, hv, hs⟩ := (mem_elements_iff_trail hf hroot htop).1 hm
    have hv' := (mem_childKeys_iff_trail hf hmf hv).1 (List.mem_map_of_mem he)
    refine ⟨hmf.inner (Content.children_subset _ _ he), hn, _, hv', ⟨?_, hmn⟩, ?_⟩
    · exact List.mem_map.2 ⟨base, hb, hn.symm⟩
    · exact root_suffix_iff.1 (hs.trans (List.suffix_cons _ _))
  · rintro ⟨he, hn, _ | ⟨m, v⟩, hv, href, hl⟩
    · exact href.elim
    · have hm := suffix_mem_trails (u := [key e.tag]) hv (by simp)
      obtain ⟨x, hx, rfl⟩ := exists_of_head hm
      refine ⟨x, ⟨?_, href.2⟩, ?_⟩
      · refine (mem_elements_iff_trail hf hroot htop).2 ⟨.inl hx, v, hm, root_suffix_iff.2 ?_⟩
        simpa using hl
      · obtain ⟨y, hy, hyk⟩ := List.mem_map.1 ((mem_childKeys_iff_trail hf (.inl hx) hm).2 hv)
        have hyf : f.Has y := .inl (Content.mem_trans hx (Content.children_subset _ _ hy))
        obtain rfl := hf.eq_of_id he hyf (congrArg Key.id hyk).symm
        exact ⟨hy, hn⟩

theorem attribute?_of_face {t t' : Tag} (h : (key t).face = (key t').face)
    (ht : t.name ≠ Names.text) (n : Name) : t.attribute? n = t'.attribute? n := by
  have hname : t.name = t'.name := congrArg Key.name h
  have hattr : (key t).face.attributes = (key t').face.attributes := congrArg Key.attributes h
  simp only [key, Key.face, if_neg ht, if_neg (hname ▸ ht)] at hattr
  have hvalue : ∀ {as : List Attribute}, (as.find? fun a => a.name = n).map (·.value) =
      ((as.map fun a => (a.name, a.value)).find? fun a => a.1 = n).map (·.2) := by
    intro as
    rw [List.find?_map, Option.map_map]
    rfl
  rw [Tag.attribute?, Tag.attribute?, hvalue, hvalue, hattr]

end MailMerge.Word

namespace MailMerge

open Xml Word

/-- Whether the root of the main part is no paragraph, and has one body at most. -/
def Document.OneBody (d : Document) : Prop := ∀ root, d.forest.element? d.root = some root →
  root.tag.name ≠ Names.paragraph ∧
    ∀ b ∈ root.inner.children, b.tag.name = Names.body → root.inner.child? Names.body = some b

instance (d : Document) : Decidable d.OneBody :=
  inferInstanceAs (Decidable (∀ root ∈ d.forest.element? d.root, _ ∧ _))

variable {d d' : Document} {targets : List (String × String)}

namespace Follows

theorem same (h : Follows d d') : d'.package? = d.package? ∧ d'.root = d.root ∧
    ∀ name, d'.rootOf name = d.rootOf name := by
  have hp := h.1
  unfold SameParts at hp
  rw [hp]
  exact ⟨rfl, rfl, fun _ => rfl⟩

/-- The roots are still there. -/
theorem root (h : Follows d d') (hs : d.Sound) {r : Nat} {x' : Element}
    (hr : ∃ e ∈ d.forest.attached.children, e.tag.id = r)
    (hx : d'.forest.element? r = some x') : x' ∈ d'.forest.attached.children ∧
      ∃ x ∈ d.forest.attached.children, d.forest.element? r = some x ∧ key x'.tag = key x.tag := by
  have hf' := (h.sequel hs).1.numbered
  obtain ⟨x, hm, rfl⟩ := hr
  obtain ⟨y, hy, hk⟩ := List.mem_map.1 (h.2.keepsRoots hs.numbered _ (List.mem_map_of_mem hm))
  have hid : y.tag.id = x.tag.id := congrArg Key.id hk
  have hey := hf'.element?_of_has (.inl (Content.children_subset _ _ hy))
  obtain rfl := Option.some.inj (hey.symm.trans (hid ▸ hx))
  exact ⟨hy, x, hm, hs.numbered.element?_of_has (.inl (Content.children_subset _ _ hm)), hk⟩

/-- The references lead where references have led before. -/
theorem references (h : Follows d d') (hs : d.Sound) (hm : d.OneBody) {root' e : Element}
    {base : String} (hroot : d'.forest.element? d'.root = some root')
    (hb : base ∈ Document.referring) (he : e ∈ Document.references root' base) :
    ∃ root e₀, d.forest.element? d.root = some root ∧ e₀ ∈ Document.references root base ∧
      ∀ targets, Document.partOf targets e₀ = Document.partOf targets e := by
  obtain ⟨hr', root, hr, hroot₀, hk⟩ := h.root hs hs.root (h.same.2.1 ▸ hroot)
  obtain ⟨-, hn, v, hv, href, hl⟩ :=
    (mem_references_iff (h.sequel hs).1.numbered hr' hb).1 he
  have hne : (key root'.tag).name ≠ Names.paragraph := hk ▸ (hm root hroot₀).1
  obtain ⟨t, ht, href₀, hl₀, hface⟩ :=
    ((h.2.step hs.numbered).made _ hv).reference hne href hl
  obtain ⟨e₀, he₀, u, rfl⟩ := exists_of_trail ht
  have hface : (key e₀.tag).face = (key e.tag).face := Option.some.inj hface
  have hn₀ : e₀.tag.name = name base := (congrArg Key.name hface).trans hn
  refine ⟨root, e₀, hroot₀, (mem_references_iff hs.numbered hr hb).2
    ⟨.inl he₀, hn₀, _, ht, href₀, hk ▸ hl₀⟩, fun targets => ?_⟩
  have hnt : e₀.tag.name ≠ Names.text := (notMem_referenceNames _ href₀.head).2.2.1
  rw [Document.partOf, Document.partOf, attribute?_of_face hface hnt]

end Follows

namespace Document

theorem Ready.follows (hr : Ready targets d) (hs : d.Sound) (hm : d.OneBody) (h : Follows d d') :
    Ready targets d' := by
  obtain ⟨hpackage, -, hparts⟩ := h.same
  have settled : ∀ {name : String}, Settled d name → Settled d' name := by
    rintro name (⟨root, hroot⟩ | ⟨p, hp, hb⟩)
    · exact .inl ⟨root, (hparts name).trans hroot⟩
    · exact .inr ⟨p, hpackage.trans hp, hb⟩
  refine ⟨targets_of_package hr.given hpackage, fun root' hroot base hb e he name hn => ?_,
    fun x hx => settled (hr.notes x hx)⟩
  obtain ⟨root, e₀, hroot₀, he₀, hpart⟩ := h.references hs hm hroot hb he
  exact settled (hr.references root hroot₀ base hb e₀ he₀ name ((hpart targets).trans hn))

theorem Source.congr {i : Nat} (h : Source targets d i) (hf : d'.forest = d.forest)
    (hp : d'.parts = d.parts) (hr : d'.root = d.root) : Source targets d' i := by
  have hroot : ∀ name, d'.rootOf name = d.rootOf name := fun name => by rw [rootOf, hp, rootOf]
  cases h with
  | part h hb he hn hi => exact .part (by rwa [hf, hr]) hb he hn ((hroot _).trans hi)
  | body h hb hi => exact .body (by rwa [hf, hr]) hb hi
  | note hx h he hm hi hid => exact .note hx ((hroot _).trans h) (hf ▸ he) hm hi hid

theorem noted_ne_text : ∀ x ∈ noted, x.2 ≠ Names.text := by decide

/-- A story that comes from somewhere after a merge has come from there before, if what it is in has
been there. -/
theorem Source.before {i : Nat} {e' : Element} {u : List Key} (hsource : Source targets d' i)
    (hs : d.Sound) (hm : d.OneBody) (h : Follows d d') (hi : e'.tag.id = i)
    (ht' : key e'.tag :: u ∈ trails [] d'.forest.attached)
    (ht : key e'.tag :: u ∈ trails [] d.forest.attached) : Source targets d i := by
  obtain ⟨-, hdroot, hparts⟩ := h.same
  have hf' := (h.sequel hs).1.numbered
  -- A child of a root that has been there has been a child of the root.
  have child : ∀ {r : Nat} {root' x' : Element}, (∃ e ∈ d.forest.attached.children, e.tag.id = r) →
      d'.forest.element? r = some root' → x' ∈ root'.inner.children → x'.tag.id = i →
        ∃ root x, d.forest.element? r = some root ∧ x ∈ root.inner.children ∧
          key x.tag = key x'.tag := by
    intro r root' x' hr hroot' hx' hxi
    obtain ⟨hr', root, hrm, hroot, hk⟩ := h.root hs hr hroot'
    have hhas' : d'.forest.Has root' := .inl (Content.children_subset _ _ hr')
    have hxt := (mem_childKeys_iff_trail hf' hhas' (trails_of_child hr' [])).1
      (List.mem_map_of_mem hx')
    have heq := trail_eq_of_id hf'.attached ht' hxt (hi.trans hxi.symm)
    rw [heq, hk] at ht
    obtain ⟨x, hx, hxk⟩ := List.mem_map.1 ((mem_childKeys_iff_trail hs.numbered
      (.inl (Content.children_subset _ _ hrm)) (trails_of_child hrm [])).2 ht)
    exact ⟨root, x, hroot, hx, hxk⟩
  cases hsource with
  | part hr hb he hn hroot =>
    obtain ⟨root, e₀, hroot₀, he₀, hpart⟩ := h.references hs hm hr hb he
    exact .part hroot₀ hb he₀ ((hpart targets).trans hn) ((hparts _).symm.trans hroot)
  | @body root' b hr hb hid =>
    have hbm := List.mem_of_find?_eq_some hb
    have hbn : b.tag.name = Names.body := by simpa using List.find?_some hb
    obtain ⟨root, x, hroot, hx, hk⟩ := child hs.root (hdroot ▸ hr) hbm hid
    exact .body hroot ((hm root hroot).2 x hx ((congrArg Key.name hk).trans hbn))
      ((congrArg Key.id hk).trans hid)
  | @note part name r root' e hp hr he hn hnote hid =>
    have hr₀ := (hparts part).symm.trans hr
    obtain ⟨y, hy, hyr, -⟩ := hs.toFiled.root_of hr₀
    obtain ⟨root, x, hroot, hx, hk⟩ := child ⟨y, hy, hyr⟩ he hn hid
    refine .note hp hr₀ hroot hx ?_ ((congrArg Key.id hk).trans hid)
    have hxn : x.tag.name = e.tag.name := congrArg Key.name hk
    simp only [isNote, Bool.and_eq_true, decide_eq_true_eq] at hnote ⊢
    have hnt : x.tag.name ≠ Names.text := by
      rw [hxn, hnote.1]
      exact noted_ne_text _ hp
    exact ⟨hxn.trans hnote.1, attribute?_of_face (congrArg Key.face hk) hnt _ ▸ hnote.2⟩

end Document

/-- A paragraph that is listed after a merge and has been there has been listed. -/
theorem Follows.listed {found found' : List Story} (h : Follows d d') (hs : d.Sound)
    (hm : d.OneBody) (hall : ∀ i, Document.Source targets d i → ∃ s ∈ found, s.element = i)
    (hfound' : ∀ s ∈ found', Document.Source targets d' s.element) {x : Element}
    (hx : x ∈ Merge.listing d'.forest found') (hlt : x.tag.id < d.forest.next) :
    ∃ p ∈ Merge.listing d.forest found, p.tag.id = x.tag.id := by
  have hf := hs.numbered
  have hs' := (h.sequel hs).1
  obtain ⟨s', hsm', hx⟩ := List.mem_flatMap.1 hx
  obtain ⟨e', he', hxe, hxn⟩ := Story.has_of_named hx
  obtain ⟨hhas', hid'⟩ := hs'.numbered.element?_eq_some.1 he'
  have hsource := hfound' s' hsm'
  obtain ⟨y, hy, hyi⟩ := hsource.attached hs'
  obtain rfl := hs'.numbered.eq_of_id hhas' (.inl hy) (hid'.trans hyi.symm)
  -- The trail of the paragraph is old, and so is that of the element of the story on it.
  obtain ⟨u, hu⟩ := exists_root_trail hy
  have hxm : x ∈ (Content.element e'.tag e'.inner .nil).elements := by
    simpa [Content.elements] using hxe
  obtain ⟨-, v, hv, w, hw⟩ := (mem_elements_iff_trail hs'.numbered hhas' hu).1 hxm
  have hold : key x.tag :: v ∈ trails [] d.forest.attached :=
    (h.2.step hf).shift.order.subset (List.mem_filter.2 ⟨hv, decide_eq_true hlt⟩)
  have hu₀ : key e'.tag :: u ∈ trails [] d.forest.attached :=
    suffix_mem_trails (u := w) (hw ▸ hold) (by simp)
  obtain ⟨s, hsm, hse⟩ := hall _ (hsource.before hs hm h hid' hu hu₀)
  obtain ⟨e, he, hek⟩ := exists_of_head hu₀
  obtain ⟨p, hp, hpk⟩ := exists_of_head hold
  have hid : e.tag.id = s.element := (congrArg Key.id hek).trans (hid'.trans hse.symm)
  have hpid : p.tag.id = x.tag.id := congrArg Key.id hpk
  have hpn : p.tag.name = Names.paragraph := (congrArg Key.name hpk).trans hxn
  have hpm : p ∈ (Content.element e.tag e.inner .nil).elements := by
    rw [← hek] at hu₀ hw
    rw [← hpk] at hold hw
    exact (mem_elements_iff_trail hf (.inl he) hu₀).2 ⟨.inl hp, v, hold, w, hw⟩
  refine ⟨p, List.mem_flatMap.2 ⟨s, hsm, ?_⟩, hpid⟩
  rw [Story.paragraphs, Story.named, ← hid, hf.element?_of_has (.inl he)]
  exact List.mem_filter.2 ⟨hpm, decide_eq_true hpn⟩

end MailMerge
