import MailMerge.Proofs.Trails

/-!
# Content that has been swept

An edit of a paragraph sweeps its content: it takes some elements away, puts some empty ones in, and
changes characters, but it neither moves elements nor changes nested paragraphs. `Swept` says this
along the content, `Shift` says what it comes to for trails. What may go and what may come are
parameters: `gone w s` that the trail `w ++ s` may go since the element that `s` belongs to goes,
`come t` that the trail `t` may come.
-/

namespace MailMerge.Word

open MailMerge.Xml

/-- Whether a trail belongs to an element with a number below `n`. -/
def isOld (n : Nat) (t : List Key) : Bool := t.head?.any fun k => k.id < n

@[simp] theorem isOld_cons (n : Nat) (k : Key) (u : List Key) :
    isOld n (k :: u) = decide (k.id < n) := rfl

theorem isOld_mono {n m : Nat} (h : n ≤ m) {t : List Key} (ht : isOld n t = true) :
    isOld m t = true := by
  rcases t with _ | ⟨k, u⟩
  · cases ht
  · simp only [isOld_cons, decide_eq_true_eq] at ht ⊢
    omega

/-- What an edit may come to for trails: those with numbers below `n` keep their order. -/
structure Shift (gone : List Key → List Key → Prop) (come : List Key → Prop) (n : Nat)
    (ts ts' : List (List Key)) : Prop where
  order : (ts'.filter (isOld n)).Sublist ts
  new : ∀ t ∈ ts', t ∈ ts ∨ come t
  lost : ∀ t ∈ ts, t ∈ ts' ∨ ∃ w s, t = w ++ s ∧ gone w s

namespace Shift

variable {gone gone' : List Key → List Key → Prop} {come come' : List Key → Prop} {n m : Nat}
  {ts ts' ts'' : List (List Key)}

theorem refl (ts : List (List Key)) : Shift gone come n ts ts :=
  ⟨List.filter_sublist, fun _ h => .inl h, fun _ h => .inl h⟩

theorem trans (h : Shift gone come n ts ts') (h' : Shift gone come m ts' ts'') (hn : n ≤ m) :
    Shift gone come n ts ts'' where
  order := by
    have hf : ts''.filter (isOld n) = (ts''.filter (isOld m)).filter (isOld n) := by
      rw [List.filter_filter]
      refine List.filter_congr fun t _ => ?_
      cases ht : isOld n t
      · rfl
      · simp [isOld_mono hn ht]
    rw [hf]
    exact (h'.order.filter _).trans h.order
  new t ht := (h'.new t ht).elim (h.new t) .inr
  lost t ht := (h.lost t ht).elim (h'.lost t) .inr

theorem mono (h : Shift gone come n ts ts') (hg : ∀ w s, gone w s → gone' w s)
    (hc : ∀ t, come t → come' t) : Shift gone' come' n ts ts' where
  order := h.order
  new t ht := (h.new t ht).imp id (hc t)
  lost t ht := (h.lost t ht).imp id fun ⟨w, s, e, hs⟩ => ⟨w, s, e, hg w s hs⟩

/-- Fewer numbers count as old ones. -/
theorem of_le (h : Shift gone come m ts ts') (hn : n ≤ m) : Shift gone come n ts ts' :=
  (refl ts).trans h hn

/-- What is around a place stays as it is. -/
theorem around (h : Shift gone come n ts ts') (front back : List (List Key)) :
    Shift gone come n (front ++ ts ++ back) (front ++ ts' ++ back) where
  order := by
    simp only [List.filter_append]
    exact (List.filter_sublist.append h.order).append List.filter_sublist
  new t ht := by
    simp only [List.mem_append] at ht ⊢
    rcases ht with (ht | ht) | ht
    · exact .inl (.inl (.inl ht))
    · exact (h.new t ht).imp (fun h => .inl (.inr h)) id
    · exact .inl (.inr ht)
  lost t ht := by
    simp only [List.mem_append] at ht ⊢
    rcases ht with (ht | ht) | ht
    · exact .inl (.inl (.inl ht))
    · exact (h.lost t ht).imp (fun h => .inl (.inr h)) id
    · exact .inl (.inr ht)

/-- Behind content something new is put. -/
theorem append {above : List Key} {c d : Content} (hc : ∀ t ∈ trails above d, come t)
    (hn : ∀ i ∈ d.ids, n ≤ i) :
    Shift gone come n (trails above c) (trails above (c ++ d)) := by
  rw [trails_append]
  refine ⟨?_, fun t ht => ?_, fun t ht => .inl (List.mem_append_left _ ht)⟩
  · have hnil : (trails above d).filter (isOld n) = [] := by
      refine List.filter_eq_nil_iff.2 fun t ht => ?_
      obtain ⟨k, u, rfl⟩ := above_suffix ht
      have := hn k.id (mem_ids_iff_trail.2 ⟨k, _, ht, rfl⟩)
      simpa using this
    rw [List.filter_append, hnil, List.append_nil]
    exact List.filter_sublist
  · exact (List.mem_append.1 ht).imp id (hc t)

theorem element {above : List Key} {tag : Tag} {inner inner' rest : Content}
    (h : Shift gone come n (trails (key tag :: above) inner) (trails (key tag :: above) inner')) :
    Shift gone come n (trails above (.element tag inner rest))
      (trails above (.element tag inner' rest)) := by
  simpa [trails] using h.around [key tag :: above] (trails above rest)

theorem fill {above : List Key} {c c' : Content} {h : Hole}
    (hs : Shift gone come n (trails (Around.trail h above) c) (trails (Around.trail h above) c')) :
    Shift gone come n (trails above (h.fill c)) (trails above (h.fill c')) := by
  rw [trails_fill, trails_fill]
  exact hs.around _ _

end Shift

/-- A list of keys from which some have been taken out. -/
inductive Thinned (out : Key → Prop) : List Key → List Key → Prop
  | nil : Thinned out [] []
  | keep {k : Key} {l l' : List Key} (h : Thinned out l l') : Thinned out (k :: l) (k :: l')
  | lose {k : Key} {l l' : List Key} (hk : out k) (h : Thinned out l l') : Thinned out (k :: l) l'

theorem Thinned.refl {out : Key → Prop} : ∀ l : List Key, Thinned out l l
  | [] => .nil
  | _ :: l => .keep (refl l)

/-- The keys of the children. -/
def childKeys (c : Content) : List Key := c.children.map fun e => key e.tag

/-- Content before and after a sweep, with the trail that leads on from it. -/
inductive Swept (gone : List Key → List Key → Prop) (come : List Key → Prop) (n : Nat) :
    List Key → Content → Content → Prop
  | nil {a : List Key} : Swept gone come n a .nil .nil
  | text {a : List Key} {c c' : Content} {cs ds : List Char} (h : Swept gone come n a c c') :
      Swept gone come n a (.text cs c) (.text ds c')
  | loseText {a : List Key} {c c' : Content} {cs : List Char} (h : Swept gone come n a c c') :
      Swept gone come n a (.text cs c) c'
  | gainText {a : List Key} {c c' : Content} {cs : List Char} (h : Swept gone come n a c c') :
      Swept gone come n a c (.text cs c')
  | markup {a : List Key} {c c' : Content} {m : Markup} (h : Swept gone come n a c c') :
      Swept gone come n a (.markup m c) (.markup m c')
  | loseMarkup {a : List Key} {c c' : Content} {m : Markup} (h : Swept gone come n a c c') :
      Swept gone come n a (.markup m c) c'
  | keep {a : List Key} {tag tag' : Tag} {inner inner' rest rest' : Content}
      (hk : key tag' = key tag)
      (hp : tag.name = Names.paragraph → tag' = tag ∧ inner' = inner)
      (hi : Swept gone come n (key tag :: a) inner inner') (hr : Swept gone come n a rest rest') :
      Swept gone come n a (.element tag inner rest) (.element tag' inner' rest')
  | lose {a : List Key} {tag : Tag} {inner rest rest' : Content}
      (hg : ∀ w, w ++ key tag :: a ∈ trails a (.element tag inner .nil) → gone w (key tag :: a))
      (hr : Swept gone come n a rest rest') :
      Swept gone come n a (.element tag inner rest) rest'
  | gain {a : List Key} {tag : Tag} {inner c c' : Content} (hc : come (key tag :: a))
      (hn : n ≤ tag.id) (hp : tag.name ≠ Names.paragraph) (hi : inner.elements = [])
      (h : Swept gone come n a c c') : Swept gone come n a c (.element tag inner c')

theorem trails_of_elements_nil {above : List Key} : ∀ {c : Content}, c.elements = [] →
    trails above c = []
  | .nil, _ => rfl
  | .text _ rest, h | .markup _ rest, h => trails_of_elements_nil (c := rest) h

namespace Swept

variable {gone : List Key → List Key → Prop} {come : List Key → Prop} {n : Nat} {a : List Key}
  {c c' : Content}

theorem refl : ∀ {a : List Key} (c : Content), Swept gone come n a c c
  | _, .nil => .nil
  | _, .text _ rest => .text (refl rest)
  | _, .markup _ rest => .markup (refl rest)
  | _, .element _ inner rest => .keep rfl (fun _ => ⟨rfl, rfl⟩) (refl inner) (refl rest)

theorem dropText (h : Swept gone come n a c c') : Swept gone come n a c c'.dropText := by
  induction h with
  | nil => exact .nil
  | text _ ih => exact .loseText ih
  | loseText _ ih => exact .loseText ih
  | gainText _ ih => exact ih
  | markup h _ => exact .markup h
  | loseMarkup _ ih => exact .loseMarkup ih
  | keep hk hp hi hr _ _ => exact .keep hk hp hi hr
  | lose hg _ ih => exact .lose hg ih
  | gain hc hn hp hi h _ => exact .gain hc hn hp hi h

/-- What is around a sweep is swept, too, if no paragraph is between. -/
theorem fill {h : Hole} (hp : ∀ tag ∈ h.above, tag.name ≠ Names.paragraph)
    (hs : Swept gone come n (Around.trail h a) c c') :
    Swept gone come n a (h.fill c) (h.fill c') := by
  induction h generalizing a with
  | here => exact hs
  | text _ h ih => exact .text (ih hp hs)
  | markup _ h ih => exact .markup (ih hp hs)
  | behind tag inner h ih => exact .keep rfl (fun _ => ⟨rfl, rfl⟩) (refl inner) (ih hp hs)
  | inside tag h rest ih =>
    simp only [Hole.above, List.mem_append, List.mem_cons, List.not_mem_nil, or_false] at hp
    refine .keep rfl (fun ht => absurd ht (hp tag (.inr rfl))) ?_ (refl rest)
    refine ih (fun t ht => hp t (.inl ht)) ?_
    simpa [Around.trail, Hole.above] using hs

/-- What is lost is lost at a place in the content, or with an element there. -/
theorem lost (h : Swept gone come n a c c') : ∀ t ∈ trails a c, t ∈ trails a c' ∨
    ∃ w k s, t = w ++ k :: (s ++ a) ∧ gone w (k :: (s ++ a)) := by
  induction h with
  | nil => exact fun t ht => .inl ht
  | text _ ih | loseText _ ih | gainText _ ih | markup _ ih | loseMarkup _ ih => exact ih
  | @keep a tag tag' inner inner' rest rest' hk _ _ _ ihi ihr =>
    intro t ht
    simp only [trails, hk, List.cons_append, List.mem_cons, List.mem_append] at ht ⊢
    rcases ht with rfl | ht | ht
    · exact .inl (.inl rfl)
    · refine (ihi t ht).imp (fun h => .inr (.inl h)) ?_
      rintro ⟨w, k, s, rfl, hg⟩
      exact ⟨w, k, s ++ [key tag], by simp, by simpa using hg⟩
    · exact (ihr t ht).imp (fun h => .inr (.inr h)) id
  | @lose a tag inner rest rest' hg _ ih =>
    intro t ht
    simp only [trails, List.mem_append] at ht
    rcases ht with ht | ht
    · have hm : t ∈ trails a (.element tag inner .nil) := by simpa [trails] using ht
      obtain ⟨w, rfl⟩ : ∃ w, t = w ++ key tag :: a := by
        rcases List.mem_cons.1 ht with rfl | ht
        · exact ⟨[], rfl⟩
        · obtain ⟨k, u, rfl⟩ := above_suffix ht
          exact ⟨k :: u, rfl⟩
      exact .inr ⟨w, key tag, [], rfl, hg w hm⟩
    · exact ih t ht
  | @gain a tag inner c c' _ _ _ _ _ ih =>
    intro t ht
    refine (ih t ht).imp (fun h => ?_) id
    simp only [trails, List.mem_append]
    exact .inr h

theorem shift (h : Swept gone come n a c c') : Shift gone come n (trails a c) (trails a c') := by
  induction h with
  | nil => exact .refl _
  | text _ ih | loseText _ ih | gainText _ ih | markup _ ih | loseMarkup _ ih => exact ih
  | @keep a tag tag' inner inner' rest rest' hk hp _ _ ihi ihr =>
    simp only [trails, hk]
    have hi := ihi.around [key tag :: a] (trails a rest)
    have hr := ihr.around ([key tag :: a] ++ trails (key tag :: a) inner') []
    simp only [List.append_nil] at hr
    exact hi.trans hr (Nat.le_refl n)
  | @lose a tag inner rest rest' hg h ih =>
    refine ⟨?_, fun t ht => ?_, fun t ht => ?_⟩
    · simp only [trails]
      exact ih.order.trans (List.sublist_append_right _ _)
    · refine (ih.new t ht).imp (fun h => ?_) id
      simp only [trails, List.mem_append]
      exact .inr h
    · rcases (Swept.lose hg h).lost t ht with ht | ⟨w, _, _, e, hw⟩
      · exact .inl ht
      · exact .inr ⟨w, _, e, hw⟩
  | @gain a tag inner c c' hc hn hp hi _ ih =>
    have ht : trails a (.element tag inner c') = (key tag :: a) :: trails a c' := by
      simp [trails, trails_of_elements_nil hi]
    rw [ht]
    refine ⟨?_, fun t ht => ?_, fun t ht => ?_⟩
    · have : isOld n (key tag :: a) = false := decide_eq_false (Nat.not_lt.2 hn)
      simpa [this] using ih.order
    · rcases List.mem_cons.1 ht with rfl | ht
      · exact .inr hc
      · exact ih.new t ht
    · exact (ih.lost t ht).imp (List.mem_cons_of_mem _) id

theorem ids_sublist (h : Swept gone come n a c c') (hc : ∀ t, ¬come t) : c'.ids.Sublist c.ids := by
  induction h with
  | nil => exact .slnil
  | text _ ih | loseText _ ih | gainText _ ih | markup _ ih | loseMarkup _ ih => exact ih
  | keep hk _ _ _ ihi ihr =>
    simp only [Content.ids_element, ← key_id, hk]
    exact (ihi.append ihr).cons_cons _
  | lose _ _ ih =>
    rw [Content.ids_element]
    exact (ih.trans (List.sublist_append_right _ _)).cons _
  | gain h _ _ _ _ _ => exact absurd h (hc _)

/-- Paragraphs in swept content are what they were. -/
theorem paragraph_mem (h : Swept gone come n a c c') {q : Element} (hq : q ∈ c'.elements)
    (hn : q.tag.name = Names.paragraph) : q ∈ c.elements := by
  induction h with
  | nil => exact hq
  | text _ ih | loseText _ ih | gainText _ ih | markup _ ih | loseMarkup _ ih => exact ih hq
  | @keep a tag tag' inner inner' rest rest' hk hp _ _ ihi ihr =>
    simp only [Content.mem_element] at hq ⊢
    rcases hq with rfl | hq | hq
    · obtain ⟨rfl, rfl⟩ := hp ((congrArg Key.name hk).symm.trans hn)
      exact .inl rfl
    · exact .inr (.inl (ihi hq))
    · exact .inr (.inr (ihr hq))
  | lose _ _ ih =>
    simp only [Content.mem_element]
    exact .inr (.inr (ih hq))
  | gain _ _ hp hi _ ih =>
    simp only [Content.elements, hi, List.cons_append, List.nil_append, List.mem_cons] at hq
    rcases hq with rfl | hq
    · exact absurd hn hp
    · exact ih hq

/-- An element in swept content has been swept, or has come. -/
theorem mem (h : Swept gone come n a c c') {z' : Element} (hz : z' ∈ c'.elements) :
    (∃ z ∈ c.elements, ∃ u, key z'.tag = key z.tag ∧
      Swept gone come n (key z.tag :: u) z.inner z'.inner) ∨ ∃ u, come (key z'.tag :: u) := by
  induction h with
  | nil => simp [Content.elements] at hz
  | text _ ih | loseText _ ih | gainText _ ih | markup _ ih | loseMarkup _ ih => exact ih hz
  | @keep a tag tag' inner inner' rest rest' hk _ hi _ ihi ihr =>
    simp only [Content.mem_element] at hz ⊢
    rcases hz with rfl | hz | hz
    · exact .inl ⟨_, .inl rfl, a, hk, hi⟩
    · exact (ihi hz).imp (.imp fun z h => ⟨.inr (.inl h.1), h.2⟩) id
    · exact (ihr hz).imp (.imp fun z h => ⟨.inr (.inr h.1), h.2⟩) id
  | lose _ _ ih =>
    refine (ih hz).imp (.imp fun z h => ⟨?_, h.2⟩) id
    simp only [Content.mem_element]
    exact .inr (.inr h.1)
  | @gain a tag inner c c' hc _ _ hi _ ih =>
    simp only [Content.elements, hi, List.cons_append, List.nil_append, List.mem_cons] at hz
    rcases hz with rfl | hz
    · exact .inr ⟨a, hc⟩
    · exact ih hz

/-- The children of an element in which nothing comes are thinned out. -/
theorem children (h : Swept gone come n a c c') (hc : ∀ k, ¬come (k :: a)) :
    Thinned (fun k => gone [] (k :: a)) (childKeys c) (childKeys c') := by
  induction h with
  | nil => exact .nil
  | text _ ih | loseText _ ih | gainText _ ih | markup _ ih | loseMarkup _ ih => exact ih hc
  | keep hk _ _ _ _ ihr =>
    simp only [childKeys, Content.children, List.map_cons, hk]
    exact .keep (ihr hc)
  | lose hg _ ih => exact .lose (hg [] (by simp [trails])) (ih hc)
  | gain h _ _ _ _ _ => exact absurd h (hc _)

end Swept

/-! ## Children -/

/-- The children of content around a place are those there with others in front, or others. -/
theorem childKeys_fill : ∀ k : Hole,
    (k.above = [] ∧ ∃ a, ∀ c, childKeys (k.fill c) = a ++ childKeys c) ∨
      ∃ l, ∀ c, childKeys (k.fill c) = l
  | .here => .inl ⟨rfl, [], fun _ => rfl⟩
  | .text _ k | .markup _ k => childKeys_fill k
  | .behind tag _ k => (childKeys_fill k).imp
      (fun ⟨ha, a, h⟩ => ⟨ha, key tag :: a, fun c => congrArg (key tag :: ·) (h c)⟩)
      fun ⟨l, h⟩ => ⟨key tag :: l, fun c => congrArg (key tag :: ·) (h c)⟩
  | .inside tag _ rest => .inr ⟨key tag :: childKeys rest, fun _ => rfl⟩

theorem childKeys_fill_inner {tag : Tag} {inner inner' rest : Content} (k : Hole) :
    childKeys (k.fill (.element tag inner rest)) =
      childKeys (k.fill (.element tag inner' rest)) := by
  have h : childKeys (.element tag inner rest) = childKeys (.element tag inner' rest) := rfl
  rcases childKeys_fill k with ⟨-, a, ha⟩ | ⟨l, hl⟩
  · rw [ha, ha, h]
  · rw [hl, hl]

theorem childKeys_insertBehindText (new : Element) (c : Content) :
    childKeys (c.insertBehindText new) = key new.tag :: childKeys c := by
  rw [childKeys, Content.children_insertBehindText, List.map_cons, childKeys]

theorem childKeys_dropText (c : Content) : childKeys c.dropText = childKeys c := by
  simp [childKeys]

theorem childKeys_ids : ∀ c : Content, ((childKeys c).map (·.id)).Sublist c.ids
  | .nil => .slnil
  | .text _ rest | .markup _ rest => childKeys_ids rest
  | .element tag inner rest => by
    rw [Content.ids_element]
    exact ((childKeys_ids rest).trans (List.sublist_append_right _ _)).cons_cons _

end MailMerge.Word
