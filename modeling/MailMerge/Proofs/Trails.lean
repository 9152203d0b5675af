import MailMerge.Proofs.Hole
import MailMerge.Word.Names

/-!
# Where elements stand

A trail leads from an element outwards to the root: it names the element and all elements around
it by their numbers, names and attributes. Trails tell all there is to know about the structure of
content and nothing about its characters. Filling a place of content with something else only
changes the trails of what is in the place (`trails_fill`).
-/

namespace MailMerge.Word

open MailMerge.Xml

/-- What a trail says about an element. The attributes of text elements are left out: they change
with the text. -/
structure Key where
  id : Nat
  name : Name
  attributes : List (Name × String)
deriving DecidableEq

def key (tag : Tag) : Key :=
  ⟨tag.id, tag.name,
    if tag.name = Names.text then [] else tag.attributes.map fun a => (a.name, a.value)⟩

@[simp] theorem key_id (tag : Tag) : (key tag).id = tag.id := rfl

@[simp] theorem key_name (tag : Tag) : (key tag).name = tag.name := rfl

/-- The trails of all elements in document order. `above` is the trail that leads on from the
content. -/
def trails (above : List Key) : Content → List (List Key)
  | .nil => []
  | .text _ rest => trails above rest
  | .markup _ rest => trails above rest
  | .element tag inner rest =>
    (key tag :: above) :: trails (key tag :: above) inner ++ trails above rest

@[simp] theorem trails_append (above : List Key) (c d : Content) :
    trails above (c ++ d) = trails above c ++ trails above d := by
  induction c with
  | nil => rfl
  | text _ _ ih => simpa [trails] using ih
  | markup _ _ ih => simpa [trails] using ih
  | element _ _ _ _ ih => simp [trails, ih]

@[simp] theorem trails_dropText (above : List Key) : ∀ c : Content,
    trails above c.dropText = trails above c
  | .nil => rfl
  | .text _ rest => trails_dropText above rest
  | .markup _ _ => rfl
  | .element _ _ _ => rfl

theorem mem_trails_element {above t : List Key} {tag : Tag} {inner rest : Content} :
    t ∈ trails above (.element tag inner rest) ↔
      t = key tag :: above ∨ t ∈ trails (key tag :: above) inner ∨ t ∈ trails above rest := by
  simp [trails]

theorem trails_insertBehindText (above : List Key) (new : Element) : ∀ c : Content,
    trails above (c.insertBehindText new) =
      trails above (.element new.tag new.inner .nil) ++ trails above c
  | .nil => by simp [Content.insertBehindText, trails]
  | .text _ rest => trails_insertBehindText above new rest
  | .markup _ _ => by simp [Content.insertBehindText, trails]
  | .element _ _ _ => by simp [Content.insertBehindText, trails]

/-! ## Trails around a place -/

namespace Around

/-- The trail that leads on from a place. -/
def trail (h : Hole) (above : List Key) : List Key := h.above.map key ++ above

/-- The trails in front of a place. -/
def front (above : List Key) : Hole → List (List Key)
  | .here => []
  | .text _ h | .markup _ h => front above h
  | .behind tag inner h => trails above (.element tag inner .nil) ++ front above h
  | .inside tag h _ => (key tag :: above) :: front (key tag :: above) h

/-- The trails behind a place. -/
def back (above : List Key) : Hole → List (List Key)
  | .here => []
  | .text _ h | .markup _ h | .behind _ _ h => back above h
  | .inside tag h rest => back (key tag :: above) h ++ trails above rest

end Around

theorem Around.trail_eq (c : Content) (h : Hole) :
    Around.trail h [] = (h.around c).map fun e => key e.tag := by
  rw [Around.trail, List.append_nil, ← Hole.around_map_tag c h, List.map_map]
  rfl

theorem trails_fill (above : List Key) (c : Content) (h : Hole) :
    trails above (h.fill c) =
      Around.front above h ++ trails (Around.trail h above) c ++ Around.back above h := by
  induction h generalizing above with
  | here => simp [Hole.fill, Around.front, Around.back, Around.trail, Hole.above]
  | text _ h ih => exact ih above
  | markup _ h ih => exact ih above
  | behind tag inner h ih =>
    simp only [Hole.fill, trails, ih above, Around.front, Around.back, List.cons_append,
      List.append_assoc, List.append_nil]
    rfl
  | inside tag h rest ih =>
    simp [Hole.fill, trails, ih, Around.front, Around.back, Around.trail, Hole.above]

theorem mem_trails_fill {above : List Key} {c : Content} {h : Hole} {t : List Key} :
    t ∈ trails above (h.fill c) ↔
      t ∈ Around.front above h ∨ t ∈ trails (Around.trail h above) c ∨ t ∈ Around.back above h := by
  simp [trails_fill]

/-! ## Trails and elements -/

/-- A trail says where an element is. -/
theorem exists_fill_of_trail {t : List Key} : ∀ {above : List Key} {c : Content},
    t ∈ trails above c → ∃ (h : Hole) (tag : Tag) (inner rest : Content),
      c = h.fill (.element tag inner rest) ∧ t = key tag :: Around.trail h above
  | above, .text cs rest, ht => by
    obtain ⟨h, tag, inner, more, rfl, e⟩ := exists_fill_of_trail (c := rest) ht
    exact ⟨.text cs h, tag, inner, more, rfl, e⟩
  | above, .markup m rest, ht => by
    obtain ⟨h, tag, inner, more, rfl, e⟩ := exists_fill_of_trail (c := rest) ht
    exact ⟨.markup m h, tag, inner, more, rfl, e⟩
  | above, .element tag inner rest, ht => by
    simp only [mem_trails_element] at ht
    rcases ht with rfl | ht | ht
    · exact ⟨.here, tag, inner, rest, rfl, rfl⟩
    · obtain ⟨h, t', i, more, rfl, rfl⟩ := exists_fill_of_trail ht
      exact ⟨.inside tag h rest, t', i, more, rfl, by simp [Around.trail, Hole.above]⟩
    · obtain ⟨h, t', i, more, rfl, rfl⟩ := exists_fill_of_trail ht
      exact ⟨.behind tag inner h, t', i, more, rfl, rfl⟩

theorem trail_mem_fill {above : List Key} {h : Hole} {tag : Tag} {inner rest : Content} :
    key tag :: Around.trail h above ∈ trails above (h.fill (.element tag inner rest)) := by
  simp [trails_fill, trails]

theorem trails_inner_subset {above : List Key} {h : Hole} {tag : Tag} {inner rest : Content}
    {t : List Key} (ht : t ∈ trails (key tag :: Around.trail h above) inner) :
    t ∈ trails above (h.fill (.element tag inner rest)) := by
  simp [trails_fill, trails, ht]

theorem exists_trail (above : List Key) {c : Content} {e : Element} (he : e ∈ c.elements) :
    ∃ u, key e.tag :: (u ++ above) ∈ trails above c := by
  obtain ⟨h, rest, rfl⟩ := Hole.exists_fill_of_mem he
  exact ⟨_, trail_mem_fill⟩

theorem exists_root_trail {c : Content} {e : Element} (he : e ∈ c.elements) :
    ∃ u, key e.tag :: u ∈ trails [] c := by
  obtain ⟨u, hu⟩ := exists_trail [] he
  exact ⟨u, by simpa using hu⟩

theorem exists_of_trail {above t : List Key} {c : Content} (ht : t ∈ trails above c) :
    ∃ e ∈ c.elements, ∃ u, t = key e.tag :: (u ++ above) := by
  obtain ⟨h, tag, inner, rest, rfl, rfl⟩ := exists_fill_of_trail ht
  exact ⟨⟨tag, inner⟩, Hole.self_mem_fill _ _ _ _, _, rfl⟩

theorem exists_of_head {above u : List Key} {k : Key} {c : Content} (ht : k :: u ∈ trails above c) :
    ∃ e ∈ c.elements, key e.tag = k := by
  obtain ⟨e, he, _, hk⟩ := exists_of_trail ht
  exact ⟨e, he, (List.cons.inj hk).1.symm⟩

theorem ids_eq_trails (above : List Key) (c : Content) :
    (trails above c).map (fun t => t.head?.map (·.id)) = c.ids.map some := by
  induction c generalizing above with
  | nil => rfl
  | text _ _ ih => exact ih above
  | markup _ _ ih => exact ih above
  | element tag inner rest ihi ihr =>
    simp [trails, ihi (key tag :: above), ihr above]

theorem heads_trails (above : List Key) (c : Content) :
    (trails above c).filterMap List.head? = c.elements.map fun e => key e.tag := by
  induction c generalizing above with
  | nil => rfl
  | text _ _ ih => exact ih above
  | markup _ _ ih => exact ih above
  | element tag inner rest ihi ihr =>
    simp [trails, Content.elements, ihi (key tag :: above), ihr above]

theorem mem_ids_iff_trail {above : List Key} {c : Content} {i : Nat} :
    i ∈ c.ids ↔ ∃ k u, k :: u ∈ trails above c ∧ k.id = i := by
  constructor
  · intro hi
    obtain ⟨e, he, rfl⟩ := Content.mem_ids.1 hi
    obtain ⟨u, hu⟩ := exists_trail above he
    exact ⟨_, _, hu, rfl⟩
  · rintro ⟨k, u, ht, rfl⟩
    obtain ⟨e, he, rfl⟩ := exists_of_head ht
    exact Content.id_mem_ids he

/-- Where numbers are not used twice, a trail is known by the number of its element. -/
theorem trail_eq_of_id {above : List Key} {c : Content} (hc : c.ids.Nodup) {k k' : Key}
    {u u' : List Key} (ht : k :: u ∈ trails above c) (ht' : k' :: u' ∈ trails above c)
    (h : k.id = k'.id) : k :: u = k' :: u' := by
  have hn : ((trails above c).map fun t => t.head?.map (·.id)).Nodup := by
    rw [ids_eq_trails]
    exact hc.map fun _ _ => Option.some.inj
  exact List.inj_on_of_nodup_map hn ht ht' (by simp [h])

theorem trails_nodup {above : List Key} {c : Content} (hc : c.ids.Nodup) :
    (trails above c).Nodup := by
  refine List.Nodup.of_map (fun t => t.head?.map (·.id)) ?_
  rw [ids_eq_trails]
  exact hc.map fun _ _ => Option.some.inj

theorem above_suffix {above t : List Key} {c : Content} (ht : t ∈ trails above c) :
    ∃ k u, t = k :: (u ++ above) := by
  obtain ⟨e, -, u, rfl⟩ := exists_of_trail ht
  exact ⟨_, u, rfl⟩

/-- What is around an element has a trail too. -/
theorem suffix_mem_trails {above : List Key} {c : Content} {u s : List Key}
    (ht : u ++ s ∈ trails above c) (hs : above.length < s.length) : s ∈ trails above c := by
  induction c generalizing above with
  | nil => simp [trails] at ht
  | text _ _ ih => exact ih ht hs
  | markup _ _ ih => exact ih ht hs
  | element tag inner rest ihi ihr =>
    simp only [mem_trails_element] at ht ⊢
    rcases ht with ht | ht | ht
    · rcases u with _ | ⟨k, u⟩
      · exact .inl ht
      · have := congrArg List.length ht
        simp only [List.cons_append, List.length_cons, List.length_append] at this
        omega
    · by_cases hl : s.length = above.length + 1
      · obtain ⟨k, v, hv⟩ := above_suffix ht
        have hv' : u ++ s = k :: v ++ key tag :: above := by simpa using hv
        have := List.append_inj_right' hv' (by simpa using hl)
        exact .inl this
      · exact .inr (.inl (ihi ht (by simp only [List.length_cons]; omega)))
    · exact .inr (.inr (ihr ht hs))

/-- The trails that lead through an element are those of what is in it. -/
theorem mem_inner_of_suffix {above : List Key} {h : Hole} {tag : Tag} {inner rest : Content}
    (hn : (h.fill (.element tag inner rest)).ids.Nodup) {k : Key} {u : List Key}
    (ht : k :: (u ++ key tag :: Around.trail h above) ∈
      trails above (h.fill (.element tag inner rest))) :
    k :: (u ++ key tag :: Around.trail h above) ∈ trails (key tag :: Around.trail h above) inner := by
  -- In a part of the content that does not have the element, no trail leads through it.
  have absent : ∀ {a : List Key} {c : Content} {h : Hole}, tag.id ∉ c.ids →
      k :: (u ++ key tag :: Around.trail h a) ∉ trails a c := by
    intro a c h hi hc
    have hs := suffix_mem_trails (u := k :: u) hc (by
      simp only [Around.trail, List.length_cons, List.length_append]
      omega)
    exact hi (mem_ids_iff_trail.2 ⟨_, _, hs, rfl⟩)
  have hm : ∀ h : Hole, tag.id ∈ (h.fill (.element tag inner rest)).ids := fun h =>
    Content.id_mem_ids (Hole.self_mem_fill h tag inner rest)
  induction h generalizing above with
  | here =>
    obtain ⟨⟨-, hr⟩, -⟩ := Content.nodup_ids_element.1 hn
    rcases mem_trails_element.1 ht with ht | ht | ht
    · have := congrArg List.length ht
      simp [Around.trail, Hole.above] at this
      omega
    · exact ht
    · exact absurd ht (absent (h := .here) hr)
  | text _ h ih => exact ih hn ht
  | markup _ h ih => exact ih hn ht
  | behind tag' c h ih =>
    obtain ⟨⟨-, ht'⟩, -, hnh, hch⟩ := Content.nodup_ids_element.1 hn
    have hne : tag.id ∉ (Content.element tag' c .nil).ids :=
      Content.notMem_ids_element.2
        ⟨fun e => ht' (e ▸ hm h), fun hc => hch _ hc (hm h), List.not_mem_nil⟩
    have he : Around.trail (.behind tag' c h) above = Around.trail h above := rfl
    rw [he] at ht
    rcases mem_trails_element.1 ht with ht | ht | ht
    · exact absurd (mem_trails_element.2 (.inl ht)) (absent (a := above) (h := h) hne)
    · exact absurd (mem_trails_element.2 (.inr (.inl ht))) (absent (a := above) (h := h) hne)
    · exact ih hnh ht
  | inside tag' h c ih =>
    obtain ⟨-, hnh, -, hhc⟩ := Content.nodup_ids_element.1 hn
    have he : Around.trail (.inside tag' h c) above = Around.trail h (key tag' :: above) := by
      simp [Around.trail, Hole.above]
    rw [he] at ht ⊢
    rcases mem_trails_element.1 ht with ht | ht | ht
    · have := congrArg List.length ht
      simp [Around.trail] at this
      omega
    · exact ih hnh ht
    · rw [← he] at ht
      exact absurd ht (absent (h := .inside tag' h c) (hhc _ (hm h)))

end MailMerge.Word
