import MailMerge.Proofs.Enduring
import MailMerge.Proofs.Outcome

/-!
# Values beside tags that vanish

Several tags can be all the text of a list item, one of them with a value of several lines and the
others with none (`HasOneValue`). Whether the lines become items is decided when it is the turn of
the value: what is behind it has vanished by then (`apply_left`), and what is in front of it has
not. So they do if no other tag is in front (`expanded_where_first`), and if one is, they do not
(`kept_whole_behind_vanishing`).
-/

namespace MailMerge.Merge

open Xml Xml.Reader Word

variable {d d' : Document} {stats : Stats} {s : Substitution} {f f' : Forest} {e q q' : Element}
  {lines : List (List Char)} {items : List Element} {k : Nat}

/-! ## Tags without a value -/

/-- What is left of a paragraph, if it has text, has lost `k` characters or more. -/
def LeftOf (e : Element) (k : Nat) (f : Forest) : Prop :=
  ∀ x, f.Has x → x.tag.id = e.tag.id → x.tag.name = Names.paragraph → Paragraph.text x ≠ [] →
    Shrunk k e x

theorem LeftOf.waits (h : LeftOf e k f) (hw : Waits e.tag.id f f') : LeftOf e k f' := by
  intro x hx hid hn ht
  obtain ⟨y, hy, htag, hwanes⟩ := hw x hx hid hn ht
  have hty : Paragraph.text y ≠ [] := fun hnil =>
    ht (List.sublist_nil.1 (hnil ▸ hwanes.text_sublist))
  exact (h y hy (htag ▸ hid) (htag ▸ hn) hty).trans (.of_wanes htag.symm hwanes)

theorem leftOf_self (hf : f.Numbered) (he : f.Has e) : LeftOf e 0 f := by
  intro x hx hid _ _
  rw [hf.eq_of_id hx he hid]
  exact .of_wanes rfl (.refl _)

/-- Where there is no value, the tag goes. -/
theorem WrittenOut.left (h : WrittenOut f s q lines q' items f') (hf : f.Numbered)
    (hp : NamesParagraph s.tag.paragraph f) (hne : s.tag.found.text ≠ []) (hv : s.value = [])
    (hid : s.tag.paragraph = e.tag.id) (hl : LeftOf e k f) :
    LeftOf e (k + s.tag.found.text.length) f' := by
  obtain rfl := h.lines_of_nil hv
  obtain ⟨hhas, hqid⟩ := hf.element?_eq_some.1 h.place
  have hpos := List.length_pos_iff.2 hne
  have hlen := congrArg List.length h.stands
  rw [List.length_take, List.length_drop] at hlen
  have hshrunk : Shrunk s.tag.found.text.length q q' := by
    have hrep := h.replaced
    rw [Found.stop] at hrep
    have := hrep.shrunk (hf.nodup_inner hhas) (hf.inner_lt hhas) (by omega) (by omega)
    rwa [Nat.add_sub_cancel_left] at this
  intro x hx hxid hn ht
  obtain ⟨htag, hwanes⟩ := h.waned hf hp hx (hxid.trans (hqid.trans hid).symm) hn ht
  exact (hl q hhas (hqid.trans hid) (hp.2 q h.place) (h.text_ne_nil hne)).trans
    (hshrunk.trans (.of_wanes htag hwanes))

/-- The tags that are replaced, one behind the other. -/
def writtenTags (subs : List Substitution) : List Char := subs.flatMap (·.tag.found.text)

/-- When the tags of a paragraph without a value have been replaced, what is left of it has lost as
many characters as they have, whatever has been replaced in other paragraphs. -/
theorem apply_left (stats : Stats) {chosen : List Substitution} (hd : d.forest.Numbered)
    (he : d.forest.Has e)
    (hnames : ∀ s ∈ chosen, NamesParagraph s.tag.paragraph d.forest)
    (hparts : ∀ s ∈ chosen, Construct.decompose? s.tag.found.text = some s.tag.found.parts)
    (hvalues : ∀ s ∈ forParagraph e chosen, s.value = []) :
    Meets (apply chosen stats) d (fun _ d' => Move d.forest d'.forest ∧
      LeftOf e (writtenTags (forParagraph e chosen)).length d'.forest) fun _ _ => True := by
  refine apply_inv (fun _ done _ f => Move d.forest f ∧
    LeftOf e (writtenTags (forParagraph e done)).length f) ⟨.refl hd, leftOf_self hd he⟩ ?_
  rintro todo s done stats d' rfl ⟨hm, hl⟩
  have hs : s ∈ todo ++ s :: done := by simp
  have hp := (hnames s hs).move hd hm
  have hmove : Meets (substitute stats s) d' (fun _ d'' => Move d.forest d''.forest)
      fun _ _ => True :=
    (following_substitute hm.numbered hp).mono
      (fun _ _ h => hm.trans (h.2.move hm.numbered)) fun _ _ _ => trivial
  by_cases hid : s.tag.paragraph = e.tag.id
  · refine (hmove.and (substitute_writesOut hm.numbered hp (hparts s hs))).mono ?_
      fun _ _ _ => trivial
    rintro _ d'' ⟨hm', q, lines, q', items, hw, -⟩
    have hv : s.value = [] := hvalues s (List.mem_filter.2 ⟨hs, by simpa using hid⟩)
    have := hw.left hm.numbered hp (Found.text_ne_nil (hparts s hs)) hv hid hl
    rw [forParagraph_cons_of_eq hid, writtenTags, List.flatMap_cons, List.length_append,
      Nat.add_comm]
    exact ⟨hm', this⟩
  · refine (hmove.and (substitute_waits hm.numbered hp hid ?_)).mono ?_ fun _ _ _ => trivial
    · exact Nat.lt_of_lt_of_le (hd.has_lt he) hm.next
    · rintro _ d'' ⟨hm', hw⟩
      rw [forParagraph_cons_of_ne hid]
      exact ⟨hm', hl.waits hw⟩

/-! ## Whole merges -/

theorem tags_of_resolved {fields : FieldMap} : ∀ {tags : List Tagged} {subs : List Substitution},
    tags.map (resolved? fields) = subs.map some → subs.map (·.tag) = tags
  | [], [], _ => rfl
  | _ :: _, _ :: _, h => by
    obtain ⟨hhead, htail⟩ := List.cons.inj h
    rw [List.map_cons, resolved?_tag hhead, tags_of_resolved htail]

variable {fields : FieldMap} {pre post : List Substitution}

/-- Nothing is planned for a paragraph in other paragraphs. -/
theorem forParagraph_elsewhere {found : List Story} {l : List Element} (hf : f.Numbered)
    (he : e ∈ listing f found) (hl : l ⊆ listing f found) (hnot : e ∉ l) :
    forParagraph e ((l.flatMap tagsOf).filterMap (resolved? fields)) = [] := by
  refine List.filter_eq_nil_iff.2 fun t ht hid => ?_
  obtain ⟨tag, htag, hr⟩ := List.mem_filterMap.1 ht
  obtain ⟨x, hx, hxt⟩ := List.mem_flatMap.1 htag
  obtain ⟨_, -, rfl⟩ := List.mem_map.1 hxt
  rw [resolved?_tag hr, decide_eq_true_eq] at hid
  obtain rfl := hf.eq_of_id (mem_listing hf (hl hx)).1 (mem_listing hf he).1 hid
  exact hnot hx

/-- All the text of a list item is tags that are replaced: one of them, with nothing around the name
in the construct, by the value of `s`, and those of `pre` in front of it and of `post` behind it by
nothing. -/
structure HasOneValue (fields : FieldMap) (e : Element) (pre : List Substitution)
    (s : Substitution) (post : List Substitution) : Prop where
  item : Paragraph.isListItem e = .ok true
  resolved : (tagsOf e).map (resolved? fields) = (pre ++ s :: post).map some
  text : (Construct.scan (Paragraph.text e)).flatMap (·.text) = Paragraph.text e
  others : ∀ t ∈ pre ++ post, t.value = []
  lead : s.tag.found.parts.lead = []
  tail : s.tag.found.parts.tail = []

instance (fields : FieldMap) (e : Element) (pre : List Substitution) (s : Substitution)
    (post : List Substitution) : Decidable (HasOneValue fields e pre s post) :=
  decidable_of_iff (Paragraph.isListItem e = .ok true ∧
    (tagsOf e).map (resolved? fields) = (pre ++ s :: post).map some ∧
    (Construct.scan (Paragraph.text e)).flatMap (·.text) = Paragraph.text e ∧
    (∀ t ∈ pre ++ post, t.value = []) ∧ s.tag.found.parts.lead = [] ∧
      s.tag.found.parts.tail = []) ⟨fun ⟨h₁, h₂, h₃, h₄, h₅, h₆⟩ => ⟨h₁, h₂, h₃, h₄, h₅, h₆⟩,
        fun ⟨h₁, h₂, h₃, h₄, h₅, h₆⟩ => ⟨h₁, h₂, h₃, h₄, h₅, h₆⟩⟩

namespace HasOneValue

variable (h : HasOneValue fields e pre s post)

include h

theorem scan : (pre ++ s :: post).map (·.tag.found) = Construct.scan (Paragraph.text e) := by
  have htags := congrArg (List.map Tagged.found) (tags_of_resolved h.resolved)
  rw [List.map_map, tagsOf, List.map_map] at htags
  exact htags.trans (List.map_id _)

theorem paragraph : ∀ t ∈ pre ++ s :: post, t.tag.paragraph = e.tag.id := by
  intro t ht
  have hm : t.tag ∈ tagsOf e := tags_of_resolved h.resolved ▸ List.mem_map_of_mem ht
  obtain ⟨found, -, htag⟩ := List.mem_map.1 hm
  exact congrArg Tagged.paragraph htag.symm

theorem found_mem : s.tag.found ∈ Construct.scan (Paragraph.text e) := by
  rw [← h.scan]
  exact List.mem_map_of_mem (f := fun t : Substitution => t.tag.found) (by simp)

theorem text_ne_nil : s.tag.found.text ≠ [] := (Construct.scan_spec h.found_mem).2.1

/-- With no tag in front, the tag and those behind it are all of the text. -/
theorem length_of_first (hpre : pre = []) : (Paragraph.text e).length =
    s.tag.found.text.length + (writtenTags post).length := by
  rw [← h.text, ← h.scan, hpre, List.nil_append, List.flatMap_map, List.flatMap_cons,
    List.length_append]
  rfl

/-- With a tag in front, there are characters in front. -/
theorem start_pos (hpre : pre ≠ []) : 0 < s.tag.found.start := by
  obtain ⟨t, more, rfl⟩ := List.exists_cons_of_ne_nil hpre
  have hsorted := Construct.pairwise_scan (Paragraph.text e)
  have ht : t.tag.found ∈ Construct.scan (Paragraph.text e) := by simp [← h.scan]
  rw [← h.scan, List.cons_append, List.map_cons, List.pairwise_cons] at hsorted
  have hle := hsorted.1 s.tag.found (by simp)
  have hpos := List.length_pos_iff.2 (Construct.scan_spec ht).2.1
  rw [Found.stop] at hle
  omega

/-- When the tags behind have gone, the tag fills the list item if no other tag is in front. -/
theorem fills_iff (hleft : LeftOf e (writtenTags post).length f) (hf : f.Numbered)
    (hp : NamesParagraph s.tag.paragraph f) (hw : WrittenOut f s q lines q' items f') :
    Shrunk (writtenTags post).length e q ∧ (Fills f s.tag ↔ pre = []) := by
  have hshrunk : Shrunk (writtenTags post).length e q := by
    obtain ⟨hhas, hid⟩ := hf.element?_eq_some.1 hw.place
    exact hleft q hhas (hid.trans (h.paragraph s (by simp))) (hp.2 q hw.place)
      (hw.text_ne_nil h.text_ne_nil)
  refine ⟨hshrunk, fun hfill => ?_, fun hpre => ?_⟩
  · by_contra hpre
    exact hw.not_fills h.text_ne_nil (h.start_pos hpre) hfill
  · exact hw.fills h.text_ne_nil hshrunk h.item h.lead h.tail (h.length_of_first hpre).le

/-- The tags of the paragraph have their place in every plan, and nothing else of the plan is in
the paragraph behind them, nor in front of them if no paragraph is listed twice. -/
theorem exists_planned {found : List Story} (hf : f.Numbered) (he : e ∈ listing f found) :
    ∃ before after, planned fields f found = before ++ s :: after ∧
      forParagraph e after = post ∧
      ((listing f found).Nodup → pre = [] → forParagraph e before = []) := by
  obtain ⟨back, front, hlist, hback⟩ := List.eq_append_cons_of_mem (List.mem_reverse.2 he)
  have hlist : listing f found = front.reverse ++ e :: back.reverse := by
    rw [← List.reverse_reverse (listing f found), hlist]
    simp
  have hown : (tagsOf e).filterMap (resolved? fields) = pre ++ s :: post := by
    have := congrArg (List.filterMap id) h.resolved
    rwa [List.filterMap_map, List.filterMap_map, Function.id_comp, Function.id_comp,
      List.filterMap_some] at this
  refine ⟨(front.reverse.flatMap tagsOf).filterMap (resolved? fields) ++ pre,
    post ++ (back.reverse.flatMap tagsOf).filterMap (resolved? fields), ?_, ?_,
    fun honce hpre => ?_⟩
  · rw [planned, hlist, List.flatMap_append, List.flatMap_cons, List.filterMap_append,
      List.filterMap_append, hown]
    simp only [List.append_assoc, List.cons_append]
  · have hrest := @forParagraph_elsewhere _ _ fields _ _ hf he
      (show back.reverse ⊆ listing f found by simp [hlist]) (by simpa using hback)
    rw [forParagraph, List.filter_append, ← forParagraph, ← forParagraph, hrest, List.append_nil]
    exact List.filter_eq_self.2 fun t ht => decide_eq_true (h.paragraph t (by simp [ht]))
  · rw [hpre, List.append_nil]
    refine forParagraph_elsewhere hf he (by simp [hlist]) fun hm => ?_
    rw [hlist] at honce
    exact (List.nodup_append.1 honce).2.2 e hm e List.mem_cons_self rfl

end HasOneValue

/-! ### Documents in order -/

/-- A text that is no longer than its first line has no other lines. -/
theorem splitLines_eq_of_length_le {value first : List Char} {more : List (List Char)}
    (hsplit : Text.splitLines value = first :: more)
    (hle : (lineFeeds value).length ≤ first.length) :
    Text.splitLines value = [lineFeeds value] := by
  rw [← Text.joinLines_splitLines, hsplit] at hle ⊢
  have hmore : more = [] := by
    by_contra hmore
    rw [Text.joinLines_cons hmore, List.length_append, List.length_cons] at hle
    omega
  simp [hmore, Text.joinLines, List.intercalate]

/-- In a document in order, paragraphs with a line each stand where the list item has stood, when
its last tag has been replaced. -/
theorem WrittenOut.exists_lined {f₀ : Forest} {before after : List Substitution}
    (hw : WrittenOut f s q lines q' items f') (hf₀ : f₀.Numbered)
    (he : e ∈ f₀.attached.elements) (hn : e.tag.name = Names.paragraph)
    (hid : s.tag.paragraph = e.tag.id) (hplan : Planned f₀ (before ++ s :: after))
    (hvalue : s.value.getLast? ≠ some '\r') (hstage : Stage f₀ (before ++ [s]) after f)
    (hstage' : Stage f₀ before (s :: after) f') (hfill : Fills f s.tag)
    (htexts : (q' :: items).map Paragraph.text = Text.splitLines s.value) :
    ∃ u l, key e.tag :: u ∈ trails [] f₀.attached ∧ Lined u f' l ∧
      l.map Paragraph.text = Text.splitLines s.value ∧
      ∀ x ∈ l, x.tag.id = e.tag.id ∨ f₀.next ≤ x.tag.id := by
  obtain ⟨u, ht⟩ := exists_root_trail he
  obtain ⟨x, more, htag, hlined, hids, hcases⟩ := hstage'.each e he hn u ht
  obtain ⟨p, q₀, v, hpend⟩ := hstage.exists_pending hf₀ hplan hvalue
  obtain rfl := hf₀.eq_of_id (.inl hpend.attached) (.inl he) (hpend.id.trans hid)
  obtain ⟨hhas, hqid⟩ := hstage.numbered.element?_eq_some.1 hw.place
  obtain rfl := hstage.numbered.eq_of_id hpend.stands.has hhas
    (hpend.id_eq.trans (hpend.id.trans hqid.symm))
  have hparagraph : NamesParagraph s.tag.paragraph f :=
    ⟨hqid ▸ hstage.numbered.has_lt hhas, fun y hy => by
      obtain rfl := Option.some.inj (hw.place.symm.trans hy)
      exact hpend.stands.name⟩
  have hfilled : filled 0 (Paragraph.text p) (forParagraph p (s :: after)) =
      lineFeeds s.value := by
    obtain ⟨y, hy, -, htext, hlead, htail⟩ := hfill
    obtain rfl := Option.some.inj (hw.place.symm.trans hy)
    rw [forParagraph_cons_of_eq hid, (filled_cons_of_whole hpend.due.stands hpend.due.behind
      (hpend.text.symm.trans htext)).2, shown, replacement_of_bare hlead htail]
  refine ⟨u, x :: more, ht, hlined, ?_, List.forall_mem_cons.2
    ⟨.inl (congrArg Tag.id htag), fun y hy => .inr (hids y hy)⟩⟩
  rcases hcases with ⟨rfl, hx⟩ | ⟨-, hmore, -⟩
  · -- What is left of the paragraph shows no more than the first line, so there is no other one.
    obtain ⟨first, rest, hsplit⟩ := List.exists_cons_of_ne_nil (Text.splitLines_ne_nil s.value)
    rw [hsplit, List.map_cons, List.cons.injEq] at htexts
    have hle : (Paragraph.text x).length ≤ first.length := by
      by_cases hnil : Paragraph.text x = []
      · simp [hnil]
      · rw [← htexts.1]
        have hstands := hlined.each x List.mem_cons_self
        obtain ⟨-, hwanes⟩ := hw.waned hstage.numbered hparagraph hstands.has
          ((congrArg Tag.id htag).trans hpend.id_eq.symm) hstands.name hnil
        exact hwanes.text_sublist.length_le
    rw [hx, hfilled] at hle
    rw [List.map_singleton, hx, hfilled, splitLines_eq_of_length_le hsplit hle]
  · rw [hmore, hfilled, Text.splitLines_lineFeeds]

/-! ### Turns -/

/-- What a value is written out as behind the tags `pre`, which vanish: its lines, if there is none
of these, and all of it in one if there is. -/
def linesBehind (pre : List Substitution) (value : List Char) : List (List Char) :=
  if pre = [] then Text.splitLines value else [value]

/-- A merge of what is found in `d₁`. In `d₂` it is the turn of `s`, when `after` has been replaced,
which leads to `d₃`, and then to `d'` when `before` is replaced. -/
structure AtTurn (fields : FieldMap) (found : List Story) (d₁ : Document)
    (before : List Substitution) (s : Substitution) (after : List Substitution) (stats₂ : Stats)
    (d₂ : Document) (stats₃ : Stats) (d₃ : Document) (stats : Stats) (d' : Document) : Prop where
  plan : planned fields d₁.forest found = before ++ s :: after
  behind : ∃ d₀, SameButLog d₁ d₀ ∧
    apply after (opening fields d₁.forest found) d₀ = .ok stats₂ d₂
  turn : substitute stats₂ s d₂ = .ok stats₃ d₃
  front : ∃ d₄, apply before stats₃ d₃ = .ok stats d₄ ∧ SameButLog d₄ d'

variable {d₁ d₂ d₃ : Document} {found : List Story} {before after : List Substitution}
  {stats₂ stats₃ : Stats}

/-- A merge comes to the turn of everything that is planned. -/
theorem exists_atTurn (hfound : Document.stories d = .ok found d₁)
    (hrun : run fields d = .ok stats d')
    (hplan : planned fields d₁.forest found = before ++ s :: after) :
    ∃ stats₂ d₂ stats₃ d₃, AtTurn fields found d₁ before s after stats₂ d₂ stats₃ d₃ stats d' := by
  obtain ⟨d₀, d₄, hl, happly, hl'⟩ := exists_apply hfound hrun
  have hsteps : Meets (apply (before ++ s :: after) (opening fields d₁.forest found)) d₀
      (fun stats d₄ => ∃ stats₂ d₂ stats₃ d₃,
        apply after (opening fields d₁.forest found) d₀ = .ok stats₂ d₂ ∧
        substitute stats₂ s d₂ = .ok stats₃ d₃ ∧ apply before stats₃ d₃ = .ok stats d₄)
      fun _ _ => True := by
    simp only [apply, List.reverse_append, List.reverse_cons, List.append_assoc,
      List.singleton_append, List.foldlM_append, List.foldlM_cons, meets_bind]
    refine (meets_self _ _).mono (fun stats₂ d₂ h₂ => ?_) fun _ _ _ => trivial
    refine (meets_self _ _).mono (fun stats₃ d₃ h₃ => ?_) fun _ _ _ => trivial
    exact (meets_self _ _).mono (fun _ _ h₄ => ⟨stats₂, d₂, stats₃, d₃, h₂, h₃, h₄⟩)
      fun _ _ _ => trivial
  obtain ⟨stats₂, d₂, stats₃, d₃, h₂, h₃, h₄⟩ := hsteps.of_ok (hplan ▸ happly)
  exact ⟨stats₂, d₂, stats₃, d₃, hplan, ⟨d₀, hl, h₂⟩, h₃, d₄, h₄, hl'⟩

namespace AtTurn

variable (ht : AtTurn fields found d₁ before s after stats₂ d₂ stats₃ d₃ stats d') (hs : d.Sound)
  (hfound : Document.stories d = .ok found d₁) (he : e ∈ listing d₁.forest found)
  (h : HasOneValue fields e pre s post)

include ht hs hfound he h

/-- When it is the turn of the value, the tags behind it have gone. -/
theorem left (hpost : forParagraph e after = post) : Move d₁.forest d₂.forest ∧
    LeftOf e (writtenTags post).length d₂.forest := by
  obtain ⟨d₀, hl, hafter⟩ := ht.behind
  have hf := ((Meets.of_ok (Document.reading_stories hs) hfound).1.sound hs).numbered
  have hm : ∀ t ∈ after, t ∈ planned fields d₁.forest found := fun t hta => by simp [ht.plan, hta]
  rw [← hl.forest] at hf
  have hall := apply_left (opening fields d₁.forest found) hf
    (hl.forest ▸ (mem_listing (hl.forest ▸ hf) he).1)
    (fun t hta => hl.forest ▸ namesParagraph_of_planned (hl.forest ▸ hf) t (hm t hta))
    (fun t hta => ?_) fun t hta => h.others t (List.mem_append_right pre (hpost ▸ hta))
  · rw [hpost, hl.forest] at hall
    exact hall.of_ok hafter
  · obtain ⟨p, -, -, -, hscan⟩ := found_of_planned hs hfound t (hm t hta)
    exact (Construct.scan_spec hscan).2.2

/-- The value is written out line by line if no other tag of the item is in front. -/
theorem exists_writtenOut (hpost : forParagraph e after = post) : ∃ q q' items,
    WrittenOut d₂.forest s q (linesBehind pre s.value) q' items d₃.forest ∧
    stats₃.items = stats₂.items + items.length ∧
    Shrunk (writtenTags post).length e q ∧ (Fills d₂.forest s.tag ↔ pre = []) := by
  obtain ⟨hmove, hleft⟩ := ht.left hs hfound he h hpost
  have hf := ((Meets.of_ok (Document.reading_stories hs) hfound).1.sound hs).numbered
  have hm : s ∈ planned fields d₁.forest found := by simp [ht.plan]
  have hp := (namesParagraph_of_planned hf s hm).move hf hmove
  obtain ⟨q, lines, q', items, hw, hitems⟩ := (substitute_writesOut hmove.numbered hp
    (Construct.scan_spec h.found_mem).2.2).of_ok ht.turn
  obtain ⟨hshrunk, hfills⟩ := h.fills_iff hleft hmove.numbered hp hw
  obtain rfl : lines = linesBehind pre s.value := by
    rw [linesBehind]
    split
    · next hpre => exact hw.lines_of_fills (hfills.2 hpre)
    · next hpre => exact hw.lines_of_not_fills fun hfill => hpre (hfills.1 hfill)
  exact ⟨q, q', items, hw, hitems, hshrunk, hfills⟩

/-- In a document in order, what the last tag of a list item has been written out as is there in the
end. -/
theorem exists_lined {q q' : Element} {items : List Element} {lines : List (List Char)}
    (hw : WrittenOut d₂.forest s q lines q' items d₃.forest) (hfill : Fills d₂.forest s.tag)
    (hpre : forParagraph e before = []) (ho : InOrder d₁.forest)
    (honce : (listing d₁.forest found).Nodup)
    (hends : ∀ t ∈ planned fields d₁.forest found, t.value.getLast? ≠ some '\r')
    (htexts : (q' :: items).map Paragraph.text = Text.splitLines s.value) :
    ∃ u l, key e.tag :: u ∈ trails [] d₁.forest.attached ∧ Lined u d'.forest l ∧
      l.map Paragraph.text = Text.splitLines s.value := by
  obtain ⟨d₀, hl, hafter⟩ := ht.behind
  obtain ⟨d₄, hbefore, hl'⟩ := ht.front
  have hf := ((Meets.of_ok (Document.reading_stories hs) hfound).1.sound hs).numbered
  obtain ⟨-, hn⟩ := mem_listing hf he
  have hplanned := @planned_spec fields _ _ _ hs hfound honce
  rw [ht.plan] at hplanned hends
  have hstage : Stage d₁.forest (before ++ [s]) after d₂.forest := by
    have hplanned' : Planned d₁.forest ((before ++ [s]) ++ after) := by simpa using hplanned
    rw [← hl.forest] at hf ho hplanned' ⊢
    exact (apply_stage_behind hf ho hplanned' fun t hta => hends t (by simp [hta])).of_ok hafter
  have hvalue := hends s (by simp)
  have hstage' := (hstage.step hf ho hplanned hvalue).of_ok ht.turn
  obtain ⟨u, l, htrail, hlined, hlines, hids⟩ := hw.exists_lined hf
    (attached_of_listing hs hfound he) hn (h.paragraph s (by simp)) hplanned hvalue hstage hstage'
    hfill htexts
  -- None of the tags that are left is in these paragraphs.
  have hother : ∀ t ∈ before, ∀ x ∈ l, x.tag.id ≠ t.tag.paragraph := by
    intro t htb x hx hxt
    rcases hids x hx with hxe | hnew
    · have hmem : t ∈ forParagraph e before :=
        List.mem_filter.2 ⟨htb, decide_eq_true (hxt.symm.trans hxe)⟩
      rw [hpre] at hmem
      cases hmem
    · have hm : t ∈ planned fields d₁.forest found := by simp [ht.plan, htb]
      have hlt := (namesParagraph_of_planned hf t hm).1
      omega
  obtain ⟨l', hseen, hlined'⟩ := (apply_lined hf ho hplanned
    (fun t htb => hends t (List.mem_append_left _ htb)) hstage' hlined hother).of_ok hbefore
  refine ⟨u, l', htrail, hl'.forest ▸ hlined', ?_⟩
  have hmap := congrArg (List.map Prod.snd) hseen
  rw [List.map_map, List.map_map] at hmap
  exact Eq.trans hmap hlines

end AtTurn

/-- A list item of which all the text is tags, and one of them is replaced by something. In a merge
that is done, it comes to the turn of that tag when all that is planned behind it has been replaced,
and the value is written out as a list item for each line if no other tag of the item is in front.
If one is, no item is added. In a document in order, the lines are there in the end, each one in a
paragraph of its own where the list item has stood. -/
theorem expanded_where_first (hs : d.Sound) (hfound : Document.stories d = .ok found d₁)
    (hrun : run fields d = .ok stats d') (he : e ∈ listing d₁.forest found)
    (h : HasOneValue fields e pre s post) :
    ∃ before after stats₂ d₂ stats₃ d₃ q q' items,
      AtTurn fields found d₁ before s after stats₂ d₂ stats₃ d₃ stats d' ∧
      WrittenOut d₂.forest s q (linesBehind pre s.value) q' items d₃.forest ∧ q.tag = e.tag ∧
      items.length + 1 = (linesBehind pre s.value).length ∧
      stats₃.items = stats₂.items + items.length ∧
      (pre = [] → Legible none e.inner → ClearProperties e.inner →
        (q' :: items).map Paragraph.text = Text.splitLines s.value ∧
        ((properties e.inner).length ≤ 1 →
          ∀ x ∈ q' :: items, Paragraph.isListItem x = .ok true)) ∧
      (pre = [] → InOrder d₁.forest → (listing d₁.forest found).Nodup →
        (∀ t ∈ planned fields d₁.forest found, t.value.getLast? ≠ some '\r') →
        ∃ u l, key e.tag :: u ∈ trails [] d₁.forest.attached ∧ Lined u d'.forest l ∧
          l.map Paragraph.text = Text.splitLines s.value) := by
  have hf := ((Meets.of_ok (Document.reading_stories hs) hfound).1.sound hs).numbered
  obtain ⟨before, after, hplan, hpost, hbefore⟩ := h.exists_planned hf he
  obtain ⟨stats₂, d₂, stats₃, d₃, ht⟩ := exists_atTurn hfound hrun hplan
  obtain ⟨q, q', items, hw, hitems, hshrunk, hfills⟩ := ht.exists_writtenOut hs hfound he h hpost
  obtain ⟨hmove, -⟩ := ht.left hs hfound he h hpost
  have hshown : pre = [] → Legible none e.inner → ClearProperties e.inner →
      (q' :: items).map Paragraph.text = Text.splitLines s.value ∧
      ((properties e.inner).length ≤ 1 →
        ∀ x ∈ q' :: items, Paragraph.isListItem x = .ok true) := by
    intro hpre hlegible hclear
    obtain ⟨htexts, hglyphs⟩ := hw.items_of_fills hmove.numbered h.text_ne_nil (hfills.2 hpre)
      (hshrunk.legible hlegible) (hshrunk.clear hclear)
    refine ⟨htexts, fun hone x hx => ?_⟩
    have hx' : Paragraph.isListItem x = Paragraph.isListItem q := by
      rw [Paragraph.isListItem, hglyphs (hshrunk.length_properties ▸ hone) x hx,
        Paragraph.isListItem]
    exact hx'.trans (hshrunk.isListItem.trans h.item)
  refine ⟨before, after, stats₂, d₂, stats₃, d₃, q, q', items, ht, hw, hshrunk.tag,
    hw.length_items, hitems, hshown, fun hpre ho honce hends => ?_⟩
  have hea := attached_of_listing hs hfound he
  obtain ⟨-, hn⟩ := mem_listing hf he
  exact ht.exists_lined hs hfound he h hw (hfills.2 hpre) (hbefore honce hpre) ho honce hends
    (hshown hpre (ho.legible hf hea hn) (ho.clearProperties hf hea hn)).1

/-- A list item with a tag and two optional ones behind it. -/
def vanishingBehind : Document := .ofBody [Document.node Names.paragraph [
  Document.node Names.paragraphProperties [Document.node Names.numbering []],
  Document.textRun "<<B>><<A", Document.textRun "?>><<C?>>"]]

/-- A list item with an optional tag in front of another one. -/
def vanishingInFront : Document := .ofBody [Document.node Names.paragraph [
  Document.node Names.paragraphProperties [Document.node Names.numbering []],
  Document.textRun "<<A?>><<B>>"]]

def twoLines : FieldMap := .of [(points ['B'], .text (points "x\ny".toList))]

theorem expanded_where_first_vanishingBehind : ∃ found d₁ stats d' e s post u l,
    Document.stories vanishingBehind = .ok found d₁ ∧
    run twoLines vanishingBehind = .ok stats d' ∧ e ∈ listing d₁.forest found ∧
    HasOneValue twoLines e [] s post ∧ post.length = 2 ∧
    key e.tag :: u ∈ trails [] d₁.forest.attached ∧ Lined u d'.forest l ∧
    l.map Paragraph.text = [['x'], ['y']] := by
  have hstories : Meets Document.stories vanishingBehind (fun found d₁ =>
      (∃ e ∈ listing d₁.forest found, ∃ s ∈ planned twoLines d₁.forest found,
        HasOneValue twoLines e [] s ((planned twoLines d₁.forest found).drop 1) ∧
          Text.splitLines s.value = [['x'], ['y']]) ∧
      ((planned twoLines d₁.forest found).drop 1).length = 2 ∧ InOrder d₁.forest ∧
      (listing d₁.forest found).Nodup ∧
      ∀ t ∈ planned twoLines d₁.forest found, t.value.getLast? ≠ some '\r') fun _ _ => False := by
    decide +kernel
  have hrun : Meets (run twoLines) vanishingBehind (fun _ _ => True) fun _ _ => False := by
    decide +kernel
  obtain ⟨found, d₁, hfound, ⟨e, he, s, -, h, hlines⟩, hpost, ho, honce, hends⟩ :=
    hstories.exists_ok
  obtain ⟨stats, d', hrun, -⟩ := hrun.exists_ok
  obtain ⟨_, _, _, _, _, _, _, _, _, -, -, -, -, -, -, hend⟩ :=
    expanded_where_first (Document.sound_ofRoot _) hfound hrun he h
  obtain ⟨u, l, htrail, hlined, htexts⟩ := hend rfl ho honce hends
  exact ⟨found, d₁, stats, d', e, s, _, u, l, hfound, hrun, he, h, hpost, htrail, hlined,
    htexts.trans hlines⟩

/-- Behind a tag that vanishes, a value of two lines is written into the item as a whole. -/
theorem kept_whole_behind_vanishing : ∃ found d₁ stats d' e pre s,
    Document.stories vanishingInFront = .ok found d₁ ∧
    run twoLines vanishingInFront = .ok stats d' ∧ e ∈ listing d₁.forest found ∧
    HasOneValue twoLines e pre s [] ∧ Text.splitLines s.value = [['x'], ['y']] ∧
    stats.items = 0 ∧
    (d'.forest.attached.named Names.paragraph).map Paragraph.text = ["x\ny".toList] := by
  have hstories : Meets Document.stories vanishingInFront (fun found d₁ =>
      ∃ e ∈ listing d₁.forest found, ∃ s ∈ planned twoLines d₁.forest found,
        HasOneValue twoLines e ((planned twoLines d₁.forest found).take 1) s [] ∧
          Text.splitLines s.value = [['x'], ['y']]) fun _ _ => False := by decide +kernel
  have hrun : Meets (run twoLines) vanishingInFront (fun stats d' => stats.items = 0 ∧
      (d'.forest.attached.named Names.paragraph).map Paragraph.text = ["x\ny".toList])
      fun _ _ => False := by decide +kernel
  obtain ⟨found, d₁, hfound, e, he, s, -, h, hlines⟩ := hstories.exists_ok
  obtain ⟨stats, d', hrun, hitems, htexts⟩ := hrun.exists_ok
  exact ⟨found, d₁, stats, d', e, _, s, hfound, hrun, he, h, hlines, hitems, htexts⟩

end MailMerge.Merge
