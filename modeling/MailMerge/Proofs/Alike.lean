import MailMerge.Proofs.Listing

/-!
# Documents that look alike

Two documents look alike if their parts have the same trees and their relationships are the same,
whatever has been read of them and however their elements are numbered (`Alike`). Whatever is listed
of one of them is listed of the other one: the same kinds of stories from the same parts with the
same trees, or it fails for the same reason, and so their texts are the same (`Alike.seen`,
`Alike.text`).
-/

namespace MailMerge.Document

open Xml

variable {d d' e e' : Document}

/-- The result of work, or why it fails. -/
def outcome {α : Type} (x : Work α) (d : Document) : Except Error α :=
  match x d with
  | .ok a _ => .ok a
  | .error err _ => .error err

theorem outcome_targets_of_package (h : d'.package? = d.package?) :
    outcome targets d' = outcome targets d := by
  rcases targets_cases d with ⟨l, hl⟩ | ⟨fault, details, he⟩
  · simp only [outcome, hl d rfl, hl d' h]
  · simp only [outcome, he d rfl, he d' h]

/-- Two documents with the same trees and relationships. -/
structure Alike (d e : Document) : Prop where
  left : d.Opened
  right : e.Opened
  tree : ∀ name, e.tree? name = d.tree? name
  targets : outcome Document.targets e = outcome Document.targets d

theorem Alike.looks (h : Alike d e) (hd : Looks d d') (he : Looks e e') : Alike d' e' where
  left := h.left.reads hd.reads
  right := h.right.reads he.reads
  tree name := by rw [he.tree? h.right.toFiled, hd.tree? h.left.toFiled, h.tree]
  targets := by
    rw [outcome_targets_of_package he.reads.package, outcome_targets_of_package hd.reads.package,
      h.targets]

/-! ## Work on two documents -/

/-- Work on two documents gives results of which `good` holds, or fails for the same reason. -/
def Agree {α β : Type} (x : Work α) (d : Document) (y : Work β) (e : Document)
    (good : α → Document → β → Document → Prop) : Prop :=
  match x d, y e with
  | .ok a d', .ok b e' => Looks d d' ∧ Looks e e' ∧ good a d' b e'
  | .error err _, .error err' _ => err' = err
  | _, _ => False

section Agree

variable {α β α' β' : Type} {x : Work α} {y : Work β}
  {good good' : α → Document → β → Document → Prop}

theorem Agree.bind {g : α → Work α'} {k : β → Work β'}
    {good' : α' → Document → β' → Document → Prop} (h : Agree x d y e good)
    (hg : ∀ a d' b e', Looks d d' → Looks e e' → good a d' b e' →
      Agree (g a) d' (k b) e' good') : Agree (x >>= g) d (y >>= k) e good' := by
  unfold Agree at h
  simp only [Agree, Bind.bind, EStateM.bind]
  cases hx : x d with
  | error err d' =>
    cases hy : y e with
    | error err' e' => simpa only [hx, hy] using h
    | ok b e' => simp only [hx, hy] at h
  | ok a d' =>
    cases hy : y e with
    | error err' e' => simp only [hx, hy] at h
    | ok b e' =>
      simp only [hx, hy] at h ⊢
      have hab := hg a d' b e' h.1 h.2.1 h.2.2
      unfold Agree at hab
      split at hab
      · exact ⟨h.1.trans hab.1, h.2.1.trans hab.2.1, hab.2.2⟩
      · exact hab
      · exact hab.elim

/-- Work on two documents agrees if what it gives on one of them goes together with what it gives on
the other one, and fails there if it fails here. -/
theorem Agree.of_meets {fine : α → Document → Prop} {bad : Error → Document → Prop}
    {fine' : β → Document → Prop} {bad' : Error → Document → Prop} (hx : Meets x d fine bad)
    (hy : Meets y e fine' bad') (hgood : ∀ a d' b e', fine a d' → fine' b e' →
      Looks d d' ∧ Looks e e' ∧ good a d' b e')
    (hleft : ∀ a d' err e', fine a d' → ¬bad' err e')
    (hright : ∀ err d' b e', bad err d' → ¬fine' b e')
    (hbad : ∀ err d' err' e', bad err d' → bad' err' e' → err' = err) : Agree x d y e good := by
  unfold Meets at hx hy
  unfold Agree
  cases hxd : x d <;> cases hye : y e <;> simp only [hxd, hye] at hx hy
  · exact hgood _ _ _ _ hx hy
  · exact absurd hy (hleft _ _ _ _ hx)
  · exact absurd hy (hright _ _ _ _ hx)
  · exact hbad _ _ _ _ hx hy

theorem agree_pure {a : α} {b : β} (h : good a d b e) : Agree (pure a) d (pure b) e good :=
  ⟨.refl, .refl, h⟩

theorem agree_report {level : Log.Level} {origin : Log.Origin} {message : String} :
    Agree (report level origin message) d (report level origin message) e
      fun _ _ _ _ => True :=
  ⟨looking_report, looking_report, trivial⟩

end Agree

/-! ## Elements -/

/-- Elements of two documents, given by their numbers, with the same tree. -/
def SameAt (d : Document) (i : Nat) (e : Document) (j : Nat) : Prop :=
  ∃ x y, d.forest.element? i = some x ∧ e.forest.element? j = some y ∧ y.plain = x.plain

theorem SameAt.looks {i j : Nat} (h : SameAt d i e j) (hs : d.Sound) (hs' : e.Sound)
    (hd : Looks d d') (he : Looks e e') : SameAt d' i e' j := by
  obtain ⟨x, y, hx, hy, hp⟩ := h
  exact ⟨x, y, hd.reads.element? hs hx, he.reads.element? hs' hy, hp⟩

theorem attribute?_of_plain {x y : Element} (h : y.plain = x.plain) (name : Name) :
    y.tag.attribute? name = x.tag.attribute? name := by
  have := congrArg (fun e : Element => e.tag.attribute? name) h
  simpa using this

theorem children_of_plain {x y : Element} (h : y.plain = x.plain) :
    y.inner.children.map Element.plain = x.inner.children.map Element.plain := by
  rw [← Content.children_plain, ← Content.children_plain]
  exact congrArg (fun e : Element => e.inner.children) h

/-- Elements in the same places of the same trees. -/
theorem forall₂_of_plain {R : Element → Element → Prop} : ∀ {l l' : List Element},
    l'.map Element.plain = l.map Element.plain →
      (∀ x ∈ l, ∀ y ∈ l', y.plain = x.plain → R x y) → List.Forall₂ R l l'
  | [], [], _, _ => .nil
  | [], _ :: _, h, _ | _ :: _, [], h, _ => by cases h
  | x :: l, y :: l', h, hR => by
    obtain ⟨hxy, h⟩ := List.cons.inj h
    exact .cons (hR x List.mem_cons_self y List.mem_cons_self hxy)
      (forall₂_of_plain h fun x hx y hy => hR x (.tail _ hx) y (.tail _ hy))

/-- What a part has been found to be is its tree. -/
theorem Looked.found {name : String} {r : Option Nat} (h : Looked d name r d') (hd : d.Filed) :
    r = none ∧ d.tree? name = .ok none ∨
      ∃ i x, r = some i ∧ d'.forest.element? i = some x ∧ d.tree? name = .ok (some x.plain) := by
  cases h with
  | @known r h =>
    obtain ⟨x, -, hx⟩ := hd.root? h
    exact .inr ⟨r, x, rfl, hx, by rw [tree?_of_rootOf h, hx]; rfl⟩
  | @missing p h hp hb =>
    refine .inl ⟨rfl, ?_⟩
    simp [Document.tree?, h, hp, Package.tree?, Package.document?, hb, Except.map]
  | @read p x next h hp hx =>
    refine .inr ⟨_, x.root, rfl, element?_plant hd.numbered (planted_of_document? hx), ?_⟩
    simp only [Document.tree?, h, hp, package_tree? p name d.forest.next, hx]
    rfl

/-- What looking at a part gives is told by the tree of the part. -/
theorem partRoot?_found (name : String) (hd : d.Filed) : Meets (partRoot? name) d
    (fun r d' => Looks d d' ∧ (r = none ∧ d.tree? name = .ok none ∨
      ∃ i x, r = some i ∧ d'.forest.element? i = some x ∧ d.tree? name = .ok (some x.plain)))
    fun err _ => d.tree? name = .error err :=
  (looking_partRoot?.and (partRoot?_looked name d)).mono (fun _ _ h => ⟨h.1, h.2.found hd⟩)
    fun _ _ h => h.2.2

theorem Alike.partRoot? (h : Alike d e) (name : String) :
    Agree (partRoot? name) d (partRoot? name) e fun r d' r' e' =>
      r = none ∧ r' = none ∨ ∃ i j, r = some i ∧ r' = some j ∧ SameAt d' i e' j := by
  have htree := h.tree name
  refine .of_meets (partRoot?_found name h.left.toFiled) (partRoot?_found name h.right.toFiled)
    ?_ ?_ ?_ ?_
  · rintro r d' r' e' ⟨hd, hr⟩ ⟨he, hr'⟩
    refine ⟨hd, he, ?_⟩
    rw [htree] at hr'
    rcases hr with ⟨rfl, ht⟩ | ⟨i, x, rfl, hx, ht⟩ <;>
      rcases hr' with ⟨rfl, ht'⟩ | ⟨j, y, rfl, hy, ht'⟩
    · exact .inl ⟨rfl, rfl⟩
    · cases ht.symm.trans ht'
    · cases ht.symm.trans ht'
    · exact .inr ⟨i, j, rfl, rfl, x, y, hx, hy,
        (Option.some.inj (Except.ok.inj (ht.symm.trans ht'))).symm⟩
  · rintro r d' err e' ⟨-, ⟨-, ht⟩ | ⟨i, x, -, -, ht⟩⟩ ht' <;>
      cases ht.symm.trans (htree.symm.trans ht')
  · rintro err d' r e' ht ⟨-, ⟨-, ht'⟩ | ⟨i, x, -, -, ht'⟩⟩ <;>
      cases ht.symm.trans (htree.symm.trans ht')
  · intro err d' err' e' ht ht'
    exact Except.error.inj (ht'.symm.trans (htree.trans ht))

/-! ## Stories -/

/-- Stories of two documents that are the same but for their numbers. -/
structure SameStory (d e : Document) (s t : Story) : Prop where
  kind : t.kind = s.kind
  part : t.part = s.part
  tree : SameAt d s.element e t.element

/-- Work that lists the same stories of two documents. -/
abbrev AgreeOn (x : Work (List Story)) (d : Document) (y : Work (List Story)) (e : Document) :
    Prop :=
  Agree x d y e fun found d' found' e' => List.Forall₂ (SameStory d' e') found found'

theorem Alike.stories_looks {found found' : List Story} (h : Alike d e) (hd : Looks d d')
    (he : Looks e e') (hs : List.Forall₂ (SameStory d e) found found') :
    List.Forall₂ (SameStory d' e') found found' :=
  hs.imp fun _ _ hst => ⟨hst.kind, hst.part,
    hst.tree.looks h.left.toSound h.right.toSound hd he⟩

/-- The main parts have the same tree. -/
theorem Alike.root (h : Alike d e) : SameAt d d.root e e.root := by
  obtain ⟨x, -, hx⟩ := h.left.toFiled.root? h.left.main
  obtain ⟨y, -, hy⟩ := h.right.toFiled.root? h.right.main
  have htree := h.tree PartName.main
  rw [tree?_of_rootOf h.left.main, tree?_of_rootOf h.right.main, hx, hy] at htree
  exact ⟨x, y, hx, hy, Option.some.inj (Except.ok.inj htree)⟩

theorem Alike.agree_rootElement (h : Alike d e) : Agree rootElement d rootElement e
    fun r d' r' e' => ∃ x y, r = some x ∧ r' = some y ∧ d'.forest.element? d.root = some x ∧
      e'.forest.element? e.root = some y ∧ y.plain = x.plain := by
  obtain ⟨x, y, hx, hy, hp⟩ := h.root
  exact ⟨looking_rootElement, looking_rootElement, x, y, hx, hy, hx, hy, hp⟩

/-- A child of an element is found by its number. -/
theorem element?_child {f : Forest} (hf : f.Numbered) {i : Nat} {x b : Element}
    (hx : f.element? i = some x) (hb : b ∈ x.inner.children) : f.element? b.tag.id = some b :=
  hf.element?_of_has ((hf.element?_eq_some.1 hx).1.inner (Content.children_subset _ b hb))

theorem Alike.referred {targets : List (String × String)} {base : String}
    {kind : PageKind → String → StoryKind} : ∀ {es es' : List Element} (seen : List String)
    {d e : Document}, Alike d e → es'.map Element.plain = es.map Element.plain →
      AgreeOn (referred targets base kind seen es) d (referred targets base kind seen es') e
  | [], [], _, _, _, _, _ => agree_pure .nil
  | [], _ :: _, _, _, _, _, h | _ :: _, [], _, _, _, _, h => by cases h
  | x :: es, y :: es', seen, d, e, halike, h => by
    obtain ⟨hxy, h⟩ := List.cons.inj h
    rw [Document.referred, Document.referred, attribute?_of_plain hxy, attribute?_of_plain hxy]
    split
    · exact agree_report.bind fun _ _ _ _ hd he _ => (halike.looks hd he).referred seen h
    · dsimp only
      generalize String.ofList (PartName.resolve _) = name
      split
      · exact halike.referred seen h
      · refine (halike.partRoot? name).bind fun r d₁ r' e₁ hd he hr => ?_
        have halike₁ := halike.looks hd he
        rcases hr with ⟨rfl, rfl⟩ | ⟨i, j, rfl, rfl, hij⟩
        · exact agree_report.bind fun _ _ _ _ hd he _ => (halike₁.looks hd he).referred _ h
        · refine (halike₁.referred (name :: seen) h).bind fun found d₂ found' e₂ hd he hs => ?_
          refine agree_pure (.cons ⟨rfl, rfl, ?_⟩ hs)
          exact hij.looks halike₁.left.toSound halike₁.right.toSound hd he

/-- What work gives is its outcome. -/
theorem meets_outcome {α : Type} {x : Work α} (h : Looking x d) :
    Meets x d (fun a d' => Looks d d' ∧ outcome x d = .ok a) fun err _ =>
      outcome x d = .error err :=
  (h.and (meets_self x d)).mono (fun _ _ h => ⟨h.1, by simp only [outcome, h.2]⟩)
    fun _ _ h => by simp only [outcome, h.2]

theorem Alike.agree_targets (h : Alike d e) :
    Agree Document.targets d Document.targets e fun l _ l' _ => l' = l := by
  have ho := h.targets
  refine .of_meets (meets_outcome looking_targets) (meets_outcome looking_targets) ?_ ?_ ?_ ?_
  · rintro l d' l' e' ⟨hd, hl⟩ ⟨he, hl'⟩
    exact ⟨hd, he, Except.ok.inj (hl'.symm.trans (ho.trans hl))⟩
  · rintro l d' err e' ⟨-, hl⟩ he
    cases hl.symm.trans (ho.symm.trans he)
  · rintro err d' l e' hd ⟨-, hl⟩
    cases hd.symm.trans (ho.symm.trans hl)
  · intro err d' err' e' hd he
    exact Except.error.inj (he.symm.trans (ho.trans hd))

theorem Alike.referredBy {base : String} {kind : PageKind → String → StoryKind} (h : Alike d e) :
    AgreeOn (referredBy base kind) d (referredBy base kind) e := by
  refine h.agree_targets.bind fun targets d₁ targets' e₁ hd he ht => ?_
  subst ht
  have h₁ := h.looks hd he
  refine h₁.agree_rootElement.bind fun _ d₂ _ e₂ hd he hr => ?_
  obtain ⟨x, y, rfl, rfl, -, -, hp⟩ := hr
  refine (h₁.looks hd he).referred [] ?_
  rw [← references_plain, hp, references_plain]

theorem Alike.headers (h : Alike d e) : AgreeOn headers d headers e := h.referredBy

theorem Alike.footers (h : Alike d e) : AgreeOn footers d footers e := h.referredBy

theorem Alike.body (h : Alike d e) : AgreeOn body d body e := by
  refine h.agree_rootElement.bind fun _ d₁ _ e₁ hd he hr => ?_
  obtain ⟨x, y, rfl, rfl, hx, hy, hp⟩ := hr
  have h₁ := h.looks hd he
  have hchild : (y.inner.child? Word.Names.body).map Element.plain =
      (x.inner.child? Word.Names.body).map Element.plain := by
    rw [← Content.child?_plain, ← Content.child?_plain]
    exact congrArg (fun e : Element => e.inner.child? Word.Names.body) hp
  rw [Option.bind_some, Option.bind_some]
  cases hb : x.inner.child? Word.Names.body with
  | none =>
    rw [hb] at hchild
    rw [Option.map_eq_none_iff.1 hchild]
    exact agree_pure .nil
  | some b =>
    rw [hb] at hchild
    obtain ⟨b', hb', hbp⟩ := Option.map_eq_some_iff.1 hchild
    rw [hb']
    exact agree_pure (.cons ⟨rfl, rfl, b, b',
      element?_child h₁.left.numbered hx (List.mem_of_find?_eq_some hb),
      element?_child h₁.right.numbered hy (List.mem_of_find?_eq_some hb'), hbp⟩ .nil)

theorem Alike.notes {part : String} {name : Name} {kind : Option String → StoryKind}
    (h : Alike d e) : AgreeOn (notes part name kind) d (notes part name kind) e := by
  refine (h.partRoot? part).bind fun r d₁ r' e₁ hd he hr => ?_
  have h₁ := h.looks hd he
  rcases hr with ⟨rfl, rfl⟩ | ⟨i, j, rfl, rfl, x, y, hx, hy, hp⟩
  · exact agree_pure .nil
  have hnotes : (y.inner.children.filter (isNote name)).map Element.plain =
      (x.inner.children.filter (isNote name)).map Element.plain := by
    have hplain : isNote name ∘ Element.plain = isNote name := rfl
    rw [← hplain, ← List.filter_map, ← List.filter_map, children_of_plain hp]
  refine ⟨.refl, .refl, ?_⟩
  simp only [hx, hy]
  refine List.forall₂_map_left_iff.2 (List.forall₂_map_right_iff.2
    (forall₂_of_plain hnotes fun a ha b hb hab => ⟨?_, rfl, a, b, ?_, ?_, hab⟩))
  · exact congrArg kind (attribute?_of_plain hab _)
  · exact element?_child h₁.left.numbered hx (List.mem_filter.1 ha).1
  · exact element?_child h₁.right.numbered hy (List.mem_filter.1 hb).1

theorem Alike.footnotes (h : Alike d e) : AgreeOn footnotes d footnotes e := h.notes

theorem Alike.endnotes (h : Alike d e) : AgreeOn endnotes d endnotes e := h.notes

theorem Alike.stories (h : Alike d e) : AgreeOn stories d stories e := by
  refine h.headers.bind fun headers d₁ headers' e₁ hd₁ he₁ hs₁ => ?_
  have h₁ := h.looks hd₁ he₁
  refine h₁.body.bind fun body d₂ body' e₂ hd₂ he₂ hs₂ => ?_
  have h₂ := h₁.looks hd₂ he₂
  refine h₂.footers.bind fun footers d₃ footers' e₃ hd₃ he₃ hs₃ => ?_
  have h₃ := h₂.looks hd₃ he₃
  refine h₃.footnotes.bind fun footnotes d₄ footnotes' e₄ hd₄ he₄ hs₄ => ?_
  have h₄ := h₃.looks hd₄ he₄
  refine h₄.endnotes.bind fun endnotes d₅ endnotes' e₅ hd₅ he₅ hs₅ => ?_
  -- What has been found first is still what it was.
  refine agree_pure ?_
  have all := List.rel_append (List.rel_append (List.rel_append (List.rel_append
    (h₁.stories_looks (hd₂.trans (hd₃.trans (hd₄.trans hd₅)))
      (he₂.trans (he₃.trans (he₄.trans he₅))) hs₁)
    (h₂.stories_looks (hd₃.trans (hd₄.trans hd₅)) (he₃.trans (he₄.trans he₅)) hs₂))
    (h₃.stories_looks (hd₄.trans hd₅) (he₄.trans he₅) hs₃))
    (h₄.stories_looks hd₅ he₅ hs₄)) hs₅
  exact all

/-! ## What is seen -/

/-- What is listed of a document: of each story its kind, its part and its tree. -/
def seen (x : Work (List Story)) : Work (List (StoryKind × String × Option Element)) := do
  let found ← x
  view fun f => found.map fun s => (s.kind, s.part, (f.element? s.element).map Element.plain)

/-- The ways to list what is in a document. -/
def listings : List (Work (List Story)) := [headers, body, footers, footnotes, endnotes, stories]

theorem Agree.outcome {α : Type} {x y : Work α} (h : Agree x d y e fun a _ b _ => b = a) :
    outcome y e = outcome x d := by
  unfold Agree at h
  unfold Document.outcome
  split at h
  · next hx hy =>
    simp only [hx, hy]
    exact congrArg Except.ok h.2.2
  · next hx hy =>
    simp only [hx, hy]
    exact congrArg Except.error h
  · exact h.elim

theorem AgreeOn.seen {x : Work (List Story)} (h : AgreeOn x d x e) :
    outcome (seen x) e = outcome (seen x) d := by
  refine Agree.outcome (h.bind fun found d' found' e' _ _ hs => ⟨.refl, .refl, ?_⟩)
  dsimp only
  induction hs with
  | nil => rfl
  | cons hst hs ih =>
    obtain ⟨a, b, ha, hb, hp⟩ := hst.tree
    rw [List.map_cons, List.map_cons, ih, hst.kind, hst.part, ha, hb, Option.map_some,
      Option.map_some, hp]

/-- The same is listed of documents that look alike. -/
theorem Alike.seen (h : Alike d e) :
    ∀ x ∈ listings, outcome (seen x) e = outcome (seen x) d := by
  simp only [listings, List.mem_cons, List.not_mem_nil, or_false]
  rintro x (rfl | rfl | rfl | rfl | rfl | rfl)
  · exact AgreeOn.seen h.headers
  · exact AgreeOn.seen h.body
  · exact AgreeOn.seen h.footers
  · exact AgreeOn.seen h.footnotes
  · exact AgreeOn.seen h.endnotes
  · exact AgreeOn.seen h.stories

/-- The text of an element does not depend on its numbers. -/
theorem SameStory.text {s t : Story} (h : SameStory d e s t) :
    t.text e.forest = s.text d.forest := by
  obtain ⟨x, y, hx, hy, hp⟩ := h.tree
  have texts : ∀ x : Element, ((Content.element x.tag x.inner .nil).named
      Word.Names.paragraph).map Word.Paragraph.text = ((Content.element x.plain.tag x.plain.inner
        .nil).named Word.Names.paragraph).map Word.Paragraph.text := by
    intro x
    have hplain : Content.element x.plain.tag x.plain.inner .nil =
        (Content.element x.tag x.inner .nil).plain := rfl
    rw [hplain, Content.named_plain, List.map_map]
    exact List.map_congr_left fun p _ => (Word.text_plain p).symm
  simp only [Story.text, Story.paragraphs, Story.named, hx, hy]
  rw [texts y, hp, ← texts x]

theorem Alike.text (h : Alike d e) : outcome text e = outcome text d := by
  refine Agree.outcome (h.stories.bind fun found d₁ found' e₁ _ _ hs => ⟨.refl, .refl, ?_⟩)
  refine congrArg Text.joinLines ?_
  induction hs with
  | nil => rfl
  | cons hst _ ih => rw [List.map_cons, List.map_cons, hst.text, ih]

end MailMerge.Document
