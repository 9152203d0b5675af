import Mathlib.Data.Option.Basic
import Mathlib.Tactic.SplitIfs
import MailMerge.Files

/-!
# Files in one folder

A path that has been read from a text is read from its own text again (`Path.Proper.ofPoints_text`).
Where a file with some name is in a folder does not depend on the files there (`locate_child`), and
writing it changes nothing else (`item?_put`).
-/

namespace MailMerge.Files

/-! ## Names -/

section Names

variable {ps qs : Points} {bytes : Text.Bytes}

theorem nameBytes?_append (ps qs : Points) : nameBytes? (ps ++ qs) =
    (nameBytes? ps).bind fun front => (nameBytes? qs).map (front ++ ·) := by
  induction ps with
  | nil => cases h : nameBytes? qs <;> simp [nameBytes?, h]
  | cons p ps ih =>
    simp only [List.cons_append, nameBytes?, ih]
    cases pointBytes? p <;> cases nameBytes? ps <;> cases nameBytes? qs <;> simp

/-- The bytes of a text without surrogates are those of its characters. -/
theorem nameBytes?_points (cs : List Char) :
    nameBytes? (points cs) = some (cs.flatMap String.utf8EncodeChar) := by
  induction cs with
  | nil => rfl
  | cons c cs ih => simp [nameBytes?, ih, pointBytes?]

/-- Texts without surrogates have the same bytes only if they are the same. -/
theorem points_of_nameBytes? {cs ds : List Char}
    (h : nameBytes? (points cs) = nameBytes? (points ds)) : cs = ds := by
  rw [nameBytes?_points, nameBytes?_points] at h
  have hbytes : cs.utf8Encode = ds.utf8Encode := congrArg List.toByteArray (Option.some.inj h)
  have hs : String.ofList cs = String.ofList ds := String.toByteArray_inj.1 hbytes
  simpa using congrArg String.toList hs

-- With surrogates, which may stand for the bytes of a character, this does not hold.
example : nameBytes? [.surrogate 0x4c3, .surrogate 0x4a9] = nameBytes? (points ['é']) := by decide

theorem exists_of_mapM {parts : List Points} {names : List Text.Bytes}
    (h : parts.mapM nameBytes? = some names) :
    ∀ part ∈ parts, ∃ bytes ∈ names, nameBytes? part = some bytes := by
  induction parts generalizing names with
  | nil => simp
  | cons part parts ih =>
    simp only [List.mapM_cons, Option.bind_eq_bind, Option.bind_eq_some_iff] at h
    obtain ⟨bytes, hb, rest, hrest, h⟩ := h
    obtain rfl := Option.some.inj h
    refine List.forall_mem_cons.2 ⟨⟨bytes, List.mem_cons_self, hb⟩, fun x hx => ?_⟩
    obtain ⟨b, hm, he⟩ := ih hrest x hx
    exact ⟨b, List.mem_cons_of_mem bytes hm, he⟩

theorem zero_mem_utf8EncodeChar {c : Char} : 0 ∈ String.utf8EncodeChar c ↔ c = '\x00' := by
  have hc : c = '\x00' ↔ c.val.toNat = 0 := by
    rw [← Char.val_inj, ← UInt32.toNat_inj]
    rfl
  rw [hc, String.utf8EncodeChar]
  generalize c.val.toNat = n
  split_ifs <;> simp [← UInt8.toNat_inj] <;> omega

theorem zero_mem_pointBytes {p : CodePoint} (h : pointBytes? p = some bytes) :
    0 ∈ bytes ↔ p = .char '\x00' := by
  cases p with
  | char c =>
    obtain rfl := Option.some.inj h
    simp [zero_mem_utf8EncodeChar]
  | surrogate n =>
    rw [pointBytes?] at h
    split_ifs at h with hn
    obtain rfl := Option.some.inj h
    have := hn.1
    simp [← UInt8.toNat_inj]
    omega

/-- A zero among the bytes of a name is a null character. -/
theorem zero_mem_nameBytes (h : nameBytes? ps = some bytes) : 0 ∈ bytes ↔ .char '\x00' ∈ ps := by
  induction ps generalizing bytes with
  | nil =>
    obtain rfl := Option.some.inj h
    simp
  | cons p ps ih =>
    simp only [nameBytes?, Option.bind_eq_bind, Option.bind_eq_some_iff] at h
    obtain ⟨first, hfirst, rest, hrest, h⟩ := h
    obtain rfl := Option.some.inj h
    rw [List.mem_append, List.mem_cons, zero_mem_pointBytes hfirst, ih hrest, eq_comm]

end Names

/-! ## Paths -/

section Pieces

variable {α : Type} [DecidableEq α] {sep : α}

theorem splitChar_append {piece rest : List α} (h : sep ∉ piece) :
    splitChar sep (piece ++ sep :: rest) = piece :: splitChar sep rest := by
  induction piece with
  | nil => simp [splitChar]
  | cons c piece ih =>
    obtain ⟨hc, hp⟩ := List.ne_and_not_mem_of_not_mem_cons h
    rw [List.cons_append, splitChar, if_neg (Ne.symm hc), ih hp]

theorem splitChar_of_notMem {piece : List α} (h : sep ∉ piece) : splitChar sep piece = [piece] := by
  induction piece with
  | nil => rfl
  | cons c piece ih =>
    obtain ⟨hc, hp⟩ := List.ne_and_not_mem_of_not_mem_cons h
    rw [splitChar, if_neg (Ne.symm hc), ih hp]

theorem notMem_of_mem_splitChar : ∀ {cs piece : List α}, piece ∈ splitChar sep cs → sep ∉ piece
  | [], piece, h => by
    obtain rfl : piece = [] := by simpa [splitChar] using h
    simp
  | c :: cs, piece, h => by
    unfold splitChar at h
    split_ifs at h with hc
    · rcases List.mem_cons.1 h with rfl | h
      · simp
      · exact notMem_of_mem_splitChar h
    · split at h
      · next hs =>
        obtain rfl : piece = [c] := by simpa using h
        simpa using Ne.symm hc
      · next first rest hs =>
        rcases List.mem_cons.1 h with rfl | h
        · have := notMem_of_mem_splitChar (hs ▸ List.mem_cons_self : first ∈ splitChar sep cs)
          simp [this, Ne.symm hc]
        · exact notMem_of_mem_splitChar (hs ▸ List.mem_cons_of_mem _ h)

end Pieces

namespace Path

/-- A part that a path keeps. -/
structure IsPart (part : Points) : Prop where
  nonempty : part ≠ []
  notHere : part ≠ [.char '.']
  noSlash : .char '/' ∉ part

/-- Paths as they are read from texts. -/
structure Proper (p : Path) : Prop where
  root : p.root = "" ∨ p.root = "/" ∨ p.root = "//"
  parts : ∀ part ∈ p.parts, IsPart part

theorem proper_ofPoints (ps : Points) : (ofPoints ps).Proper where
  root := by
    unfold ofPoints rootOf
    dsimp only
    split <;> simp
  parts part hp := by
    obtain ⟨hm, hk⟩ := List.mem_filter.1 hp
    simp only [ne_eq, Bool.and_eq_true, decide_eq_true_eq] at hk
    exact ⟨hk.1, hk.2, notMem_of_mem_splitChar hm⟩

theorem Proper.child {p : Path} (h : p.Proper) {name : Points} (hn : IsPart name) :
    (p.child name).Proper :=
  ⟨h.root, fun part hp => (List.mem_append.1 hp).elim (h.parts part) fun hp =>
    List.mem_singleton.1 hp ▸ hn⟩

/-- The parts between slashes, without those that are not kept. -/
def kept (ps : Points) : List Points :=
  (splitChar (.char '/') ps).filter fun part => part ≠ [] && part ≠ [.char '.']

theorem kept_intercalate : ∀ {parts : List Points}, (∀ part ∈ parts, IsPart part) →
    kept (List.intercalate [.char '/'] parts) = parts
  | [], _ => by simp [kept, splitChar, List.intercalate_nil]
  | [part], h => by
    have hp := h part List.mem_cons_self
    simp [kept, List.intercalate_singleton, splitChar_of_notMem hp.noSlash, hp.nonempty, hp.notHere]
  | part :: next :: rest, h => by
    have hp := h part List.mem_cons_self
    have ih : kept (List.intercalate [.char '/'] (next :: rest)) = next :: rest :=
      kept_intercalate fun x hx => h x (List.mem_cons_of_mem _ hx)
    unfold kept at ih ⊢
    rw [List.intercalate_cons_cons, List.append_assoc, List.singleton_append,
      splitChar_append hp.noSlash, List.filter_cons_of_pos, ih]
    simp [hp.nonempty, hp.notHere]

theorem kept_slash (ps : Points) : kept (.char '/' :: ps) = kept ps := by
  simp [kept, splitChar]

theorem head?_intercalate {parts : List Points} (h : ∀ part ∈ parts, IsPart part) :
    (List.intercalate [.char '/'] parts).takeWhile (· = .char '/') = [] := by
  have first : ∀ {part rest : Points}, IsPart part →
      (part ++ rest).takeWhile (· = .char '/') = [] := by
    intro part rest hp
    obtain ⟨c, cs, rfl⟩ := List.exists_cons_of_ne_nil hp.nonempty
    have : c ≠ .char '/' := fun hc => hp.noSlash (hc ▸ List.mem_cons_self)
    simp [this]
  match parts, h with
  | [], _ => simp [List.intercalate_nil]
  | [part], h =>
    rw [List.intercalate_singleton, ← List.append_nil part]
    exact first (h part List.mem_cons_self)
  | part :: next :: rest, h =>
    rw [List.intercalate_cons_cons, List.append_assoc]
    exact first (h part List.mem_cons_self)

/-- The text of a path is read as the path. -/
theorem Proper.ofPoints_text {p : Path} (h : p.Proper) : ofPoints p.text = p := by
  obtain ⟨root, parts⟩ := p
  by_cases hnone : root = "" ∧ parts = []
  · obtain ⟨rfl, rfl⟩ := hnone
    rfl
  have htext : text ⟨root, parts⟩ =
      points root.toList ++ List.intercalate [.char '/'] parts := if_neg hnone
  have hkept : kept (text ⟨root, parts⟩) = parts := by
    rw [htext]
    rcases h.root with hr | hr | hr <;> cases hr
    · exact kept_intercalate h.parts
    · exact (kept_slash _).trans (kept_intercalate h.parts)
    · exact (kept_slash _).trans ((kept_slash _).trans (kept_intercalate h.parts))
  have hroot : rootOf (text ⟨root, parts⟩) = root := by
    have hhead := head?_intercalate h.parts
    rw [htext, rootOf]
    rcases h.root with hr | hr | hr <;> cases hr <;> simp [hhead]
  have hof : ofPoints (text ⟨root, parts⟩) =
      ⟨rootOf (text ⟨root, parts⟩), kept (text ⟨root, parts⟩)⟩ := rfl
  rw [hof, hkept, hroot]

/-- What stands in front of the last part in the text of a path. -/
def front (p : Path) : Points :=
  if p.parts = [] then points p.root.toList
  else points p.root.toList ++ List.intercalate [.char '/'] p.parts ++ [.char '/']

theorem intercalate_concat {sep part : Points} : ∀ {parts : List Points}, parts ≠ [] →
    sep.intercalate (parts ++ [part]) = sep.intercalate parts ++ sep ++ part
  | [], h => absurd rfl h
  | [first], _ => by simp [List.intercalate_cons_cons, List.intercalate_singleton]
  | first :: next :: rest, _ => by
    have ih : sep.intercalate (next :: rest ++ [part]) =
        sep.intercalate (next :: rest) ++ sep ++ part := intercalate_concat (by simp)
    rw [List.cons_append, List.cons_append, List.intercalate_cons_cons, ← List.cons_append, ih,
      List.intercalate_cons_cons]
    simp

theorem text_child (p : Path) (name : Points) : (p.child name).text = p.front ++ name := by
  have hne : ¬(p.root = "" ∧ p.parts ++ [name] = []) := by simp
  rw [text, child, if_neg hne, front]
  split_ifs with hp
  · simp [hp, List.intercalate_singleton]
  · rw [intercalate_concat hp]
    simp

theorem exists_nameBytes_front {p : Path} {bytes : Text.Bytes} (h : nameBytes? p.text = some bytes) :
    ∃ front, nameBytes? p.front = some front := by
  by_cases hp : p.parts = []
  · exact ⟨_, by rw [front, if_pos hp, nameBytes?_points]⟩
  · have hfront : p.front = p.text ++ points ['/'] := by
      rw [front, if_neg hp, text, if_neg fun hn => hp hn.2]
      rfl
    exact ⟨_, by rw [hfront, nameBytes?_append, h, nameBytes?_points]; rfl⟩

@[simp] theorem name_child (p : Path) (name : Points) : (p.child name).name = name := by
  simp [Path.name, child]

theorem Proper.front_cases {p : Path} (h : p.Proper) :
    p.front = [] ∨ ∃ f, p.front = f ++ [.char '/'] := by
  unfold front
  split_ifs with hp
  · rcases h.root with hr | hr | hr <;> rw [hr]
    · exact .inl rfl
    · exact .inr ⟨[], rfl⟩
    · exact .inr ⟨[.char '/'], rfl⟩
  · exact .inr ⟨_, rfl⟩

end Path

/-! ## Places -/

namespace Tree

variable {t t' : Tree} {place q : Place} {p : Path} {name : Points}

theorem item?_nil (t : Tree) : t.item? [] = some .folder := rfl

theorem item?_put {item : Item} (hne : place ≠ []) :
    (t.put place item).item? q = if q = place then some item else t.item? q := by
  by_cases hq : q = []
  · rw [hq, if_neg (Ne.symm hne)]
    rfl
  -- What is found among the items when those at the place have been changed.
  have changed : ∀ items : List (Place × Item),
      ((items.map fun i => if i.1 = place then (place, item) else i).find? fun i => i.1 = q) =
        (items.find? fun i => i.1 = q).map fun i => if i.1 = place then (place, item) else i := by
    intro items
    rw [List.find?_map]
    congr 1
    refine congrArg (List.find? · items) (funext fun i => ?_)
    simp only [Function.comp_apply]
    split_ifs with hi
    · rw [hi]
    · rfl
  rw [item?, item?, if_neg hq, if_neg hq, put]
  split_ifs with hany hqp hqp
  · obtain ⟨i, hi, hp⟩ := List.any_eq_true.1 hany
    have hsome : (t.items.find? fun i => i.1 = q).isSome := List.find?_isSome.2 ⟨i, hi, hqp ▸ hp⟩
    obtain ⟨j, hj⟩ := Option.isSome_iff_exists.1 hsome
    have := List.find?_some hj
    simp only [decide_eq_true_eq] at this
    rw [changed, hj]
    simp [this, hqp]
  · rw [changed]
    cases hf : t.items.find? fun i => i.1 = q with
    | none => rfl
    | some i =>
      have := List.find?_some hf
      simp only [decide_eq_true_eq] at this
      simp [this, hqp]
  · have hnone : t.items.find? (fun i => i.1 = q) = none := by
      rw [List.find?_eq_none]
      intro i hi hp
      exact hany (List.any_eq_true.2 ⟨i, hi, hqp ▸ hp⟩)
    simp only [List.find?_append, hnone]
    simp [hqp]
  · simp [List.find?_append, Ne.symm hqp]

/-- Whether all folders of a tree are in another one, which is worked in from the same place. -/
structure Keeps (t t' : Tree) : Prop where
  here : t'.here = t.here
  device : t'.device = t.device
  folders : ∀ q, t.item? q = some .folder → t'.item? q = some .folder

theorem here_put (t : Tree) (place : Place) (item : Item) :
    (t.put place item).here = t.here := by
  unfold put
  split_ifs <;> rfl

theorem device_put (t : Tree) (place : Place) (item : Item) :
    (t.put place item).device = t.device := by
  unfold put
  split_ifs <;> rfl

theorem keeps_put {item : Item} (h : t.item? place ≠ some .folder) :
    Keeps t (t.put place item) := by
  refine ⟨here_put t place item, device_put t place item, fun q hq => ?_⟩
  have hne : place ≠ [] := by
    rintro rfl
    exact h (item?_nil t)
  have hqp : q ≠ place := by
    rintro rfl
    exact h hq
  rw [item?_put hne, if_neg hqp, hq]

theorem Keeps.follow (h : Keeps t t') : ∀ {parts place : Place},
    t.follow place parts = .ok q → t'.follow place parts = .ok q
  | [], place, hf => hf
  | part :: rest, place, hf => by
    unfold Tree.follow at hf ⊢
    split_ifs at hf ⊢ with hup hlong hlast
    · exact h.follow hf
    · exact hf
    · dsimp only at hf ⊢
      split at hf
      · next hi =>
        rw [h.folders _ hi]
        exact h.follow hf
      · cases hf
      · cases hf

theorem Keeps.refl (t : Tree) : Keeps t t := ⟨rfl, rfl, fun _ h => h⟩

theorem Keeps.trans {t'' : Tree} (h : Keeps t t') (h' : Keeps t' t'') : Keeps t t'' :=
  ⟨h'.here.trans h.here, h'.device.trans h.device, fun q hq => h'.folders q (h.folders q hq)⟩

theorem locate_eq_ok : t.locate p = .ok q ↔ ∃ bytes names, nameBytes? p.text = some bytes ∧
    p.parts.mapM nameBytes? = some names ∧ (names.any fun name => name.contains 0) = false ∧
      bytes.length ≤ maxPathSize ∧
        t.follow (if p.isAbsolute then [] else t.here) names = .ok q := by
  unfold locate
  generalize (if p.isAbsolute then [] else t.here) = start
  split
  · next bytes names hb hn =>
    rw [hb, hn]
    constructor
    · intro h
      split_ifs at h with hnull hsize
      exact ⟨bytes, names, rfl, rfl, Bool.eq_false_iff.2 hnull, Nat.not_lt.1 hsize, h⟩
    · rintro ⟨_, _, hb', hn', hnull, hsize, hf⟩
      cases hb'
      cases hn'
      rw [if_neg (Bool.eq_false_iff.1 hnull), if_neg (Nat.not_lt.2 hsize), hf]
  · next h =>
    refine ⟨nofun, ?_⟩
    rintro ⟨bytes, names, hb, hn, -⟩
    exact (h bytes names hb hn).elim

theorem null_notMem_of_locate (h : t.locate p = .ok q) : ∀ part ∈ p.parts, .char '\x00' ∉ part := by
  obtain ⟨-, names, -, hnames, hnull, -⟩ := locate_eq_ok.1 h
  intro part hp h0
  obtain ⟨bytes, hm, hb⟩ := exists_of_mapM hnames part hp
  rw [List.any_eq_false] at hnull
  exact hnull bytes hm (by simpa using (zero_mem_nameBytes hb).2 h0)

theorem Keeps.locate (h : Keeps t t') (hl : t.locate p = .ok q) : t'.locate p = .ok q := by
  rw [locate_eq_ok] at hl ⊢
  obtain ⟨bytes, names, hb, hn, hnull, hsize, hf⟩ := hl
  exact ⟨bytes, names, hb, hn, hnull, hsize, h.here ▸ h.follow hf⟩

/-- A path leads to a folder. -/
def LeadsTo (t : Tree) (p : Path) (place : Place) : Prop :=
  t.locate p = .ok place ∧ t.item? place = some .folder

theorem LeadsTo.keeps (h : t.LeadsTo p place) (hk : Keeps t t') : t'.LeadsTo p place :=
  ⟨hk.locate h.1, hk.folders _ h.2⟩

theorem follow_child {bytes : Text.Bytes} (hn : bytes ≠ up) : ∀ {names : List Text.Bytes}
    {start : Place}, t.follow start names = .ok place → t.item? place = some .folder →
      t.follow start (names ++ [bytes]) =
        if maxNameSize < bytes.length then .error .nameTooLong else .ok (place ++ [bytes])
  | [], start, hf, hi => by
    obtain rfl : start = place := by simpa [follow] using hf
    simp [follow, hn]
  | part :: rest, start, hf, hi => by
    rw [List.cons_append]
    unfold follow at hf ⊢
    split_ifs at hf with hup hlong hlast
    · rw [if_pos hup]
      exact follow_child hn hf hi
    · rw [if_neg hup, if_neg hlong]
      obtain rfl : start ++ [part] = place := by simpa using hf
      subst hlast
      simp [hi, follow, hn]
    · dsimp only at hf
      rw [if_neg hup, if_neg hlong, if_neg (by simp)]
      split at hf
      · exact follow_child hn hf hi
      · cases hf
      · cases hf

/-- Where something with a name is in a folder, whatever else is there. -/
def childPlace (p : Path) (place : Place) (name : Points) : Except Cause Place :=
  match nameBytes? (p.child name).text, nameBytes? name with
  | some whole, some bytes =>
    if bytes.contains 0 then .error .nullCharacter
    else if maxPathSize < whole.length then .error .nameTooLong
    else if maxNameSize < bytes.length then .error .nameTooLong
    else .ok (place ++ [bytes])
  | _, _ => .error .notEncodable

theorem locate_child (h : t.LeadsTo p place) (hn : nameBytes? name ≠ some up) :
    t.locate (p.child name) = childPlace p place name := by
  obtain ⟨hl, hi⟩ := h
  obtain ⟨-, names, -, hnames, hnull, -, hf⟩ := locate_eq_ok.1 hl
  have habs : (p.child name).isAbsolute = p.isAbsolute := rfl
  have hparts : (p.child name).parts.mapM nameBytes? =
      (nameBytes? name).map fun bytes => names ++ [bytes] := by
    rw [Path.child, List.mapM_append, hnames]
    cases hb : nameBytes? name <;> simp [hb]
  unfold locate childPlace
  rw [hparts, habs]
  cases nameBytes? (p.child name).text with
  | none => rfl
  | some whole =>
    cases hb : nameBytes? name with
    | none => rfl
    | some bytes =>
      have hup : bytes ≠ up := fun he => hn (he ▸ hb)
      have hany : ((names ++ [bytes]).any fun name => name.contains 0) = bytes.contains 0 := by
        rw [List.any_append, hnull]
        simp
      simp only [Option.map_some, hany, follow_child hup hf hi]

theorem childPlace_eq_ok (h : childPlace p place name = .ok q) :
    ∃ bytes, nameBytes? name = some bytes ∧ q = place ++ [bytes] := by
  unfold childPlace at h
  split at h
  · next whole bytes _ hb =>
    split_ifs at h
    exact ⟨bytes, hb, (Except.ok.inj h).symm⟩
  · cases h

/-- A name without a null character fails in a folder for its length, or because it has no bytes. -/
theorem childPlace_eq_error {cause : Cause} (hp : t.LeadsTo p place) (h0 : .char '\x00' ∉ name)
    (h : childPlace p place name = .error cause) :
    cause = .nameTooLong ∨ cause = .notEncodable ∧ nameBytes? name = none := by
  unfold childPlace at h
  split at h
  · next whole bytes _ hb =>
    split_ifs at h with hnull
    · rw [List.contains_iff_mem, zero_mem_nameBytes hb] at hnull
      exact absurd hnull h0
    · exact .inl (Except.error.inj h).symm
    · exact .inl (Except.error.inj h).symm
  · next hnot =>
    refine .inr ⟨(Except.error.inj h).symm, ?_⟩
    cases hb : nameBytes? name with
    | none => rfl
    | some bytes =>
      obtain ⟨_, _, htext, -⟩ := locate_eq_ok.1 hp.1
      obtain ⟨front, hfront⟩ := Path.exists_nameBytes_front htext
      refine (hnot (front ++ bytes) bytes ?_ hb).elim
      rw [Path.text_child, nameBytes?_append, hfront, hb]
      rfl

/-! ## Making folders and writing files -/

/-- New folders are made, and nothing else is changed. -/
structure Extends (t t' : Tree) : Prop where
  here : t'.here = t.here
  device : t'.device = t.device
  same : ∀ q, t'.item? q = t.item? q ∨ t.item? q = none ∧ t'.item? q = some .folder

theorem Extends.refl (t : Tree) : Extends t t := ⟨rfl, rfl, fun _ => .inl rfl⟩

theorem Extends.trans {t'' : Tree} (h : Extends t t') (h' : Extends t' t'') : Extends t t'' := by
  refine ⟨h'.here.trans h.here, h'.device.trans h.device, fun q => ?_⟩
  rcases h.same q with e | ⟨hn, hf⟩ <;> rcases h'.same q with e' | ⟨hn', hf'⟩
  · exact .inl (e'.trans e)
  · exact .inr ⟨e ▸ hn', hf'⟩
  · exact .inr ⟨hn, e'.trans hf⟩
  · rw [hf] at hn'
    cases hn'

/-- What comes of writing a file: nothing is written, for what is wrong with the path or for what the
system says, or the file has all bytes or the first of them. -/
theorem write_cases (t : Tree) (p : Path) (bytes : Text.Bytes) :
    (∃ cause, t.write p bytes = (t, .error ⟨cause, p⟩) ∧
      (t.locate p = .error cause ∨ cause = .isFolder ∨ ∃ e, cause = .system e)) ∨
    ∃ q, t.locate p = .ok q ∧ t.item? q ≠ some .folder ∧
      (t.write p bytes = (t.put q (.file bytes), .ok ()) ∨ ∃ size e,
        t.write p bytes = (t.put q (.file (bytes.take size)), .error ⟨.system e, none⟩)) := by
  unfold write
  cases hl : t.locate p with
  | error cause => exact .inl ⟨cause, rfl, .inl rfl⟩
  | ok q =>
    dsimp only
    split
    · exact .inl ⟨_, rfl, .inr (.inl rfl)⟩
    · next hi =>
      rw [fill]
      cases t.device t.items q bytes with
      | whole => exact .inr ⟨q, rfl, hi, .inl rfl⟩
      | refused e => exact .inl ⟨_, rfl, .inr (.inr ⟨e, rfl⟩)⟩
      | cut size e => exact .inr ⟨q, rfl, hi, .inr ⟨size, e, rfl⟩⟩

theorem makeFolder_spec (h : t.makeFolder p = .ok t') :
    Extends t t' ∧ ∃ place, t'.LeadsTo p place := by
  unfold makeFolder at h
  split at h
  · cases h
  · next place hl =>
    split at h
    · next hi =>
      obtain rfl := Except.ok.inj h
      exact ⟨.refl _, place, hl, hi⟩
    · cases h
    · next hi =>
      obtain rfl := Except.ok.inj h
      have hne : place ≠ [] := by
        rintro rfl
        cases hi
      have hnew : (t.put place .folder).item? place = some .folder := by
        rw [item?_put hne, if_pos rfl]
      refine ⟨⟨here_put t place _, device_put t place _, fun q => ?_⟩, place,
        (keeps_put (by simp [hi])).locate hl, hnew⟩
      by_cases hq : q = place
      · rw [hq]
        exact .inr ⟨hi, hnew⟩
      · rw [item?_put hne, if_neg hq]
        exact .inl rfl

theorem makeFoldersUp_spec : ∀ {fuel : Nat} {p : Path} {t' : Tree},
    t.makeFoldersUp p fuel = .ok t' → Extends t t' ∧ ∃ place, t'.LeadsTo p place
  | 0, _, _, h => makeFolder_spec h
  | fuel + 1, p, t', h => by
    unfold makeFoldersUp at h
    split at h
    · obtain ⟨t₁, h₁, h⟩ : ∃ t₁, t.makeFoldersUp p.parent fuel = .ok t₁ ∧
          t₁.makeFolder p = .ok t' := by
        cases h₁ : t.makeFoldersUp p.parent fuel with
        | error e =>
          rw [h₁] at h
          cases h
        | ok t₁ =>
          rw [h₁] at h
          exact ⟨t₁, rfl, h⟩
      obtain ⟨h₂, hp⟩ := makeFolder_spec h
      exact ⟨(makeFoldersUp_spec h₁).1.trans h₂, hp⟩
    · exact makeFolder_spec h

theorem makeFolders_spec (h : t.makeFolders p = .ok t') :
    Extends t t' ∧ ∃ place, t'.LeadsTo p place :=
  makeFoldersUp_spec h

end Tree

end MailMerge.Files
