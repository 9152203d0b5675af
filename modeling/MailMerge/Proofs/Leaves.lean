import Mathlib.Tactic.SplitIfs
import MailMerge.Interpreter

/-!
# Lists as lines

The text of a list inside of lists has one line for each of its leaves, in their order, empty ones
included: the lines of a list are joined in the same way as those of the lists around it
(`joinLines_flatten`), so it does not count how the leaves are put into lists (`renderAt_lines`).
Splitting the text gives the texts of the leaves back (`split_into_leaves`). A list has a text just
if its leaves have and there is room for the calls that make it (`Room.Takes`).
-/

namespace MailMerge

namespace Text

variable {α : Type} [Symbol α]

theorem joinLines_append {front back : List (List α)} (hf : front ≠ []) (hb : back ≠ []) :
    joinLines (front ++ back) = joinLines front ++ Symbol.ofChar '\n' :: joinLines back := by
  induction front with
  | nil => exact absurd rfl hf
  | cons line front ih =>
    cases front with
    | nil =>
      obtain ⟨next, rest, rfl⟩ := List.exists_cons_of_ne_nil hb
      simp [joinLines, List.intercalate_cons_cons, List.intercalate_singleton]
    | cons next front =>
      have h := ih (by simp)
      simp only [joinLines, List.cons_append, List.intercalate_cons_cons] at h ⊢
      rw [h]
      simp

/-- Joining groups of lines, and then what they have been joined to, joins all lines. -/
theorem joinLines_flatten : ∀ {groups : List (List (List α))}, (∀ g ∈ groups, g ≠ []) →
    joinLines (groups.map joinLines) = joinLines groups.flatten
  | [], _ => rfl
  | [g], _ => by simp [joinLines, List.intercalate_singleton]
  | g :: g' :: groups, h => by
    have hg : g ≠ [] := h g List.mem_cons_self
    have hg' : g' ≠ [] := h g' (.tail _ List.mem_cons_self)
    have hrest : joinLines ((g' :: groups).map joinLines) = joinLines (g' :: groups).flatten :=
      joinLines_flatten fun x hx => h x (.tail _ hx)
    rw [List.flatten_cons, joinLines_append hg (by simp [hg']), ← hrest, List.map_cons,
      ← List.singleton_append, joinLines_append (by simp) (by simp)]
    simp [joinLines, List.intercalate_singleton]

end Text

namespace Value

/-! ## Leaves -/

mutual

/-- The values in a list that are no lists, also those in the lists in it; any other value is its
own leaf. -/
def leaves : Value → List Value
  | list items | tuple items => leavesAll items
  | v => [v]

def leavesAll : List Value → List Value
  | [] => []
  | v :: rest => v.leaves ++ leavesAll rest

end

/-- The items of a list. -/
def items? : Value → Option (List Value)
  | list items | tuple items => some items
  | _ => none

/-- A value that has no empty list in it, and is none itself. -/
inductive Filled : Value → Prop
  | leaf {v : Value} (h : v.items? = none) : Filled v
  | list {v : Value} {items : List Value} (h : v.items? = some items) (hne : items ≠ [])
      (hall : ∀ w ∈ items, Filled w) : Filled v

/-- Whether there is room for the call for a value inside of `depth` lists, and for those for all
that is in it. -/
inductive Room.Takes (room : Room) : Nat → Value → Prop
  | leaf {depth : Nat} {v : Value} (h : v.items? = none) (hfits : room.fits depth v = true) :
      Takes room depth v
  | list {depth : Nat} {v : Value} {items : List Value} (h : v.items? = some items)
      (hfits : room.fits depth v = true) (hall : ∀ w ∈ items, Takes room (depth + 1) w) :
      Takes room depth v

variable {room : Room} {v : Value} {items : List Value} {depth : Nat}

theorem leaves_of_items (h : v.items? = some items) : v.leaves = leavesAll items := by
  cases v <;> simp_all [items?, leaves]

theorem leaves_of_leaf (h : v.items? = none) : v.leaves = [v] := by
  cases v <;> simp_all [items?, leaves]

theorem leavesAll_eq : ∀ items : List Value, leavesAll items = items.flatMap leaves
  | [] => rfl
  | v :: rest => by rw [leavesAll, leavesAll_eq rest, List.flatMap_cons]

theorem Room.fits_zero : ∀ {depth : Nat}, room.fits depth v = true → room.fits 0 v = true
  | 0, h => h
  | _ + 1, h => fits_zero (room.mono h)

theorem Room.Takes.fits (h : room.Takes depth v) : room.fits depth v = true := by
  cases h <;> assumption

/-! ## Rendering -/

theorem renderAt_of_items (h : v.items? = some items) : v.renderAt room depth =
    if room.fits depth v then Text.joinLines <$> renderAll room (depth + 1) items
    else .error .endless := by
  cases v <;> simp_all [items?, renderAt]

theorem renderAt_of_not_fits (h : room.fits depth v = false) :
    v.renderAt room depth = .error .endless := by
  cases v with
  | again ofList => cases ofList <;> simp [renderAt, h]
  | _ => simp [renderAt, h]

/-- A leaf has the same text in any number of lists where there is room for it. -/
theorem renderAt_of_leaf (h : v.items? = none) (hfits : room.fits depth v = true) :
    v.renderAt room depth = v.render room := by
  have hzero : room.fits 0 v = true := Room.fits_zero hfits
  cases v with
  | list | tuple => cases h
  | again ofList => cases ofList <;> simp [render, renderAt, hfits, hzero]
  | _ => simp [render, renderAt, hfits, hzero]

/-- What is known of a value that has a text: there is room for it, and the text is that of the
lines of its leaves. -/
def Rendered (room : Room) (depth : Nat) (v : Value) (text : Points) : Prop :=
  room.Takes depth v ∧ ∃ lines, lines ≠ [] ∧ v.leaves.map (render room) = lines.map .ok ∧
    text = Text.joinLines lines

theorem renderAll_lines : ∀ {items : List Value} {texts : List Points},
    (∀ v ∈ items, ∀ text, v.renderAt room depth = .ok text → Rendered room depth v text) →
    renderAll room depth items = .ok texts →
    (∀ v ∈ items, room.Takes depth v) ∧ ∃ groups : List (List Points),
      groups.length = items.length ∧ (∀ g ∈ groups, g ≠ []) ∧
      (leavesAll items).map (render room) = groups.flatten.map .ok ∧
      texts = groups.map Text.joinLines
  | [], texts, _, h => by
    obtain rfl : [] = texts := by
      rw [renderAll] at h
      exact Except.ok.inj h
    exact ⟨by simp, [], rfl, by simp, rfl, rfl⟩
  | v :: rest, texts, hitems, h => by
    rw [renderAll] at h
    cases hv : v.renderAt room depth with
    | error fault =>
      rw [hv] at h
      cases h
    | ok text =>
      cases hrest : renderAll room depth rest with
      | error fault =>
        rw [hv, hrest] at h
        cases h
      | ok others =>
        obtain rfl : text :: others = texts := by
          rw [hv, hrest] at h
          exact Except.ok.inj h
        obtain ⟨htakes, lines, hne, hleaves, rfl⟩ := hitems v List.mem_cons_self text hv
        obtain ⟨hall, groups, hlen, hgroups, hlines, rfl⟩ :=
          renderAll_lines (fun w hw => hitems w (List.mem_cons_of_mem v hw)) hrest
        refine ⟨List.forall_mem_cons.2 ⟨htakes, hall⟩, lines :: groups, by simp [hlen],
          List.forall_mem_cons.2 ⟨hne, hgroups⟩, ?_, rfl⟩
        rw [leavesAll, List.map_append, hleaves, hlines, List.flatten_cons, List.map_append]

theorem renderAt_lines (h : v.Filled) : ∀ {depth : Nat} {text : Points},
    v.renderAt room depth = .ok text → Rendered room depth v text := by
  induction h with
  | @leaf v hv =>
    intro depth text ht
    cases hfits : room.fits depth v with
    | false => cases (renderAt_of_not_fits hfits).symm.trans ht
    | true =>
      refine ⟨.leaf hv hfits, [text], by simp, ?_, by simp [Text.joinLines]⟩
      rw [leaves_of_leaf hv, List.map_singleton, ← renderAt_of_leaf hv hfits, ht]
      rfl
  | @list v items hv hne _ ih =>
    intro depth text ht
    cases hfits : room.fits depth v with
    | false => cases (renderAt_of_not_fits hfits).symm.trans ht
    | true =>
      rw [renderAt_of_items hv, if_pos hfits] at ht
      cases hall : renderAll room (depth + 1) items with
      | error fault =>
        rw [hall] at ht
        cases ht
      | ok texts =>
        obtain rfl : Text.joinLines texts = text := by
          rw [hall] at ht
          exact Except.ok.inj ht
        obtain ⟨htakes, groups, hlen, hgroups, hlines, rfl⟩ :=
          renderAll_lines (fun w hw _ => ih w hw) hall
        obtain ⟨g, rest, rfl⟩ := List.exists_cons_of_ne_nil (l := groups) (by
          rintro rfl
          exact hne (List.eq_nil_of_length_eq_zero hlen.symm))
        exact ⟨.list hv hfits htakes, _, by simp [hgroups g List.mem_cons_self],
          leaves_of_items hv ▸ hlines, Text.joinLines_flatten hgroups⟩

theorem exists_renderAll : ∀ {items : List Value},
    (∀ v ∈ items, ∃ text, v.renderAt room depth = .ok text) →
    ∃ texts, renderAll room depth items = .ok texts
  | [], _ => ⟨[], by rw [renderAll]⟩
  | v :: rest, h => by
    obtain ⟨text, hv⟩ := h v List.mem_cons_self
    obtain ⟨texts, hrest⟩ := exists_renderAll fun w hw => h w (List.mem_cons_of_mem v hw)
    refine ⟨text :: texts, ?_⟩
    rw [renderAll, hv, hrest]
    rfl

/-- A value has a text if there is room for it and its leaves have texts. -/
theorem Room.Takes.renderAt (h : room.Takes depth v)
    (hleaves : ∀ x ∈ v.leaves, ∃ line, x.render room = .ok line) :
    ∃ text, v.renderAt room depth = .ok text := by
  induction h with
  | leaf hv hfits =>
    rw [renderAt_of_leaf hv hfits]
    exact hleaves _ (by simp [leaves_of_leaf hv])
  | @list depth v items hv hfits _ ih =>
    rw [leaves_of_items hv, leavesAll_eq] at hleaves
    obtain ⟨texts, hall⟩ := exists_renderAll fun w hw =>
      ih w hw fun x hx => hleaves x (List.mem_flatMap.2 ⟨w, hw, hx⟩)
    refine ⟨Text.joinLines texts, ?_⟩
    rw [renderAt_of_items hv, if_pos hfits, hall]
    rfl

theorem exists_leaf {lines : List Points} {line : Points}
    (hlines : v.leaves.map (render room) = lines.map .ok) (hm : line ∈ lines) :
    ∃ x ∈ v.leaves, x.render room = .ok line :=
  List.mem_map.1 (hlines ▸ List.mem_map_of_mem hm)

/-- If a list whose leaves have texts of one line has a text, its lines are those of its leaves,
from the first to the last, and so they are in what a document is given for it. It has one just if
its leaves have and there is room for all calls that make it. -/
theorem split_into_leaves {room : Room} {v : Value} (hv : v.Filled)
    (hends : ∀ x ∈ v.leaves, ∀ line, x.render room = .ok line →
      ∀ p ∈ line, Text.isLineEnd p = false) :
    (∀ text, v.render room = .ok text →
      (Text.splitLines text).map .ok = v.leaves.map (render room) ∧
      Text.splitLines text.chars = (Text.splitLines text).map Points.chars) ∧
    ((∃ text, v.render room = .ok text) ↔
      room.Takes 0 v ∧ ∀ x ∈ v.leaves, ∃ line, x.render room = .ok line) := by
  refine ⟨fun text ht => ?_, ?_, fun ⟨htakes, hleaves⟩ => htakes.renderAt hleaves⟩
  · obtain ⟨-, lines, hne, hlines, rfl⟩ := renderAt_lines hv ht
    have hsplit : Text.splitLines (Text.joinLines lines) = lines :=
      Text.splitLines_joinLines hne fun line hm =>
        let ⟨x, hx, hline⟩ := exists_leaf hlines hm
        hends x hx line hline
    exact ⟨by rw [hsplit, hlines], Text.splitLines_chars _⟩
  · rintro ⟨text, ht⟩
    obtain ⟨htakes, lines, -, hlines, -⟩ := renderAt_lines hv ht
    refine ⟨htakes, fun x hx => ?_⟩
    have hm : x.render room ∈ lines.map .ok := hlines ▸ List.mem_map_of_mem hx
    obtain ⟨line, -, hline⟩ := List.mem_map.1 hm
    exact ⟨line, hline.symm⟩

/-- A list with a list in it, and with leaves that have empty texts. -/
def courses : Value :=
  .list [.text (points ['a']), .tuple [.null, .mapping []], .text []]

theorem split_into_leaves_courses : courses.Filled ∧
    (∀ x ∈ courses.leaves, ∀ line, x.render Interpreter.usual.rendering = .ok line →
      ∀ p ∈ line, Text.isLineEnd p = false) ∧
    Interpreter.usual.rendering.Takes 0 courses ∧
    ∃ text, courses.render Interpreter.usual.rendering = .ok text ∧
      Text.splitLines text.chars = [['a'], [], ['\x7b', '\x7d'], []] := by
  have hfilled : courses.Filled := by
    refine .list rfl (by decide) fun v hv => ?_
    simp only [List.mem_cons, List.not_mem_nil, or_false] at hv
    rcases hv with rfl | rfl | rfl
    · exact .leaf rfl
    · refine .list rfl (by decide) fun w hw => ?_
      simp only [List.mem_cons, List.not_mem_nil, or_false] at hw
      rcases hw with rfl | rfl <;> exact .leaf rfl
    · exact .leaf rfl
  have hrender : courses.leaves.map (render Interpreter.usual.rendering) =
      [['a'], [], ['\x7b', '\x7d'], []].map fun line => .ok (points line) := rfl
  have hleaves : ∀ x ∈ courses.leaves, ∃ line ∈ [['a'], [], ['\x7b', '\x7d'], []],
      x.render Interpreter.usual.rendering = .ok (points line) := by
    intro x hx
    have hm : x.render Interpreter.usual.rendering ∈ courses.leaves.map
      (render Interpreter.usual.rendering) := List.mem_map_of_mem hx
    rw [hrender] at hm
    obtain ⟨line, hline, he⟩ := List.mem_map.1 hm
    exact ⟨line, hline, he.symm⟩
  have hends : ∀ x ∈ courses.leaves, ∀ line, x.render Interpreter.usual.rendering = .ok line →
      ∀ p ∈ line, Text.isLineEnd p = false := by
    intro x hx line hline
    obtain ⟨cs, hcs, he⟩ := hleaves x hx
    obtain rfl := Except.ok.inj (hline.symm.trans he)
    have hall : ∀ cs ∈ [['a'], [], ['\x7b', '\x7d'], []], ∀ p ∈ points cs,
        Text.isLineEnd p = false := by decide
    exact hall cs hcs
  obtain ⟨hsplit, hiff⟩ := split_into_leaves hfilled hends
  obtain ⟨text, ht⟩ : ∃ text, courses.render Interpreter.usual.rendering = .ok text := ⟨_, rfl⟩
  obtain ⟨hlines, hchars⟩ := hsplit text ht
  refine ⟨hfilled, hends, (hiff.1 ⟨text, ht⟩).1, text, ht, ?_⟩
  have hpoints : Text.splitLines text = [['a'], [], ['\x7b', '\x7d'], []].map points := by
    have hok : (Text.splitLines text).map Except.ok =
        ([['a'], [], ['\x7b', '\x7d'], []].map points).map Except.ok := hlines.trans hrender
    exact (List.map_inj_right fun _ _ => Except.ok.inj).1 hok
  rw [hchars, hpoints]
  rfl

/-- A value inside of as many lists. -/
def inLists (v : Value) : Nat → Value
  | 0 => v
  | n + 1 => .list [v.inLists n]

theorem filled_inLists (h : v.Filled) : ∀ n, (v.inLists n).Filled
  | 0 => h
  | n + 1 => by
    refine .list rfl (by simp) fun w hw => ?_
    obtain rfl := List.mem_singleton.1 hw
    exact filled_inLists h n

theorem leaves_inLists (v : Value) : ∀ n, (v.inLists n).leaves = v.leaves
  | 0 => rfl
  | n + 1 => by rw [inLists, leaves, leavesAll, leavesAll, List.append_nil, leaves_inLists v n]

/-- Without room for a value, there is no text of the lists that it is in. -/
theorem renderAt_inLists : ∀ {n depth : Nat}, room.fits (depth + n) v = false →
    (v.inLists n).renderAt room depth = .error .endless
  | 0, _, h => renderAt_of_not_fits h
  | n + 1, depth, h => by
    have hitem : (v.inLists n).renderAt room (depth + 1) = .error .endless :=
      renderAt_inLists (by rwa [Nat.add_right_comm])
    rw [inLists, renderAt_of_items rfl, renderAll, hitem]
    split <;> rfl

/-- A list of one leaf may go too far in to have a text. -/
theorem deep_list_without_text : ((Value.text (points ['x'])).inLists 600).Filled ∧
    ((Value.text (points ['x'])).inLists 600).leaves = [.text (points ['x'])] ∧
    (Value.text (points ['x'])).render Interpreter.usual.rendering = .ok (points ['x']) ∧
    ((Value.text (points ['x'])).inLists 600).render Interpreter.usual.rendering =
      .error .endless :=
  ⟨filled_inLists (.leaf rfl) 600, leaves_inLists _ 600, rfl, renderAt_inLists rfl⟩

end Value

end MailMerge
