import Mathlib.Data.List.Forall2
import Mathlib.Data.List.TakeWhile
import MailMerge.Archive.Reader

/-!
# Archives that are read again

What is written into an archive is what is read out of it, if every member can be written as it is
(`Member.Fits`) and nothing in front of the end looks like the mark of a wide directory
(`read_write`). Whatever has been read has a name, so it can be written (`named_of_read`).
-/

namespace MailMerge.Text

theorem toList_loop (b : ByteArray) (i : Nat) (front : List UInt8) :
    ByteArray.toList.loop b i front = front.reverse ++ b.data.toList.drop i := by
  fun_induction ByteArray.toList.loop b i front with
  | case1 i front h ih =>
    have hi : i < b.data.toList.length := h
    rw [ih, List.drop_eq_getElem_cons hi]
    simp [ByteArray.get!, h]
  | case2 i front h =>
    have hd : b.data.toList.drop i = [] := List.drop_eq_nil_of_le (Nat.le_of_not_lt h)
    rw [hd, List.append_nil]

/-- The bytes of a text are those of its characters. -/
theorem toUtf8_eq (cs : List Char) : toUtf8 cs = cs.flatMap String.utf8EncodeChar := by
  rw [toUtf8, ByteArray.toList, toList_loop]
  simp [String.toUTF8, List.utf8Encode]

theorem toUtf8_ne_nil {cs : List Char} (h : cs ≠ []) : toUtf8 cs ≠ [] := by
  obtain ⟨c, rest, rfl⟩ := List.exists_cons_of_ne_nil h
  rw [toUtf8_eq, List.flatMap_cons]
  exact fun he => String.utf8EncodeChar_ne_nil (List.append_eq_nil_iff.1 he).1

end MailMerge.Text

namespace MailMerge.Archive

open Text (Bytes)

/-! ## Records -/

theorem fields?_record : ∀ {sizes values : List Nat} (rest : Bytes),
    List.Forall₂ (fun size n => n < Nat.pow 256 size) sizes values →
      fields? sizes (record sizes values ++ rest) = some (values, rest)
  | _, _, rest, .nil => rfl
  | size :: sizes, n :: values, rest, .cons hn h => by
    have hr : record (size :: sizes) (n :: values) ++ rest =
        field size n ++ (record sizes values ++ rest) := by simp [record]
    have hl := length_field size n
    rw [hr, fields?, if_neg (by simp [hl]), List.drop_left' hl, List.take_left' hl,
      fields?_record rest h, ofField_field, Nat.mod_eq_of_lt hn]
    rfl

theorem width_cons (size : Nat) (sizes : List Nat) :
    width (size :: sizes) = size + width sizes := by
  rw [width, List.foldl_cons, Nat.add_comm, List.foldl_assoc, width]

theorem length_record : ∀ {sizes values : List Nat}, sizes.length = values.length →
    (record sizes values).length = width sizes
  | [], [], _ => rfl
  | size :: sizes, n :: values, h => by
    have hr : record (size :: sizes) (n :: values) =
        field size n ++ record sizes values := by simp [record]
    rw [hr, List.length_append, length_field, length_record (by simpa using h), width_cons]

/-! ## Members -/

namespace Member

/-- Whether a member can be written as it is: its name is read as it is written, and is not that of
a folder, and there is room for the lengths of both its name and its bytes. -/
structure Fits (m : Member) : Prop where
  name : (readName m.flags m.nameBytes).toOption = some m.name
  cut : upToNull m.name = m.name
  nonempty : m.name ≠ ""
  file : m.name.toList.getLast? ≠ some '/'
  short : m.nameBytes.length < 0x10000
  small : m.bytes.length < 0x100000000

instance (m : Member) : Decidable m.Fits :=
  decidable_of_iff ((readName m.flags m.nameBytes).toOption = some m.name ∧
      upToNull m.name = m.name ∧ m.name ≠ "" ∧ m.name.toList.getLast? ≠ some '/' ∧
        m.nameBytes.length < 0x10000 ∧ m.bytes.length < 0x100000000)
    ⟨fun ⟨a, b, c, d, e, f⟩ => ⟨a, b, c, d, e, f⟩, fun ⟨a, b, c, d, e, f⟩ => ⟨a, b, c, d, e, f⟩⟩

/-- The entry that a member has in a directory. -/
def entryAt (m : Member) (offset : Nat) : Entry :=
  ⟨m.name, m.flags, 0, (checksum m.bytes).toNat, m.bytes.length, m.bytes.length, 0, offset⟩

@[simp] theorem entryAt_place (m : Member) (offset : Nat) : (m.entryAt offset).place = offset := rfl

variable {m : Member}

theorem flags_cases (m : Member) : m.flags = 0 ∨ m.flags = utf8Flag := by
  unfold flags
  split
  · exact .inl rfl
  · exact .inr rfl

theorem length_localPart (m : Member) :
    m.localPart.length = 30 + m.nameBytes.length + m.bytes.length := by
  rw [localPart, List.length_append, List.length_append,
    length_record (by simp [localSizes, common])]
  rfl

theorem Fits.common (h : m.Fits) : List.Forall₂ (fun size n => n < Nat.pow 256 size)
    [2, 2, 2, 2, 4, 4, 4, 2, 2] m.common := by
  have hs : (checksum m.bytes).toNat < 0x100000000 := UInt32.toNat_lt _
  have hf : m.flags < 0x10000 := by
    rcases m.flags_cases with hf | hf <;> rw [hf] <;> decide
  have := h.short
  have := h.small
  refine .cons hf (.cons (by decide) (.cons (by decide) (.cons (by decide) (.cons hs (.cons ?_
    (.cons ?_ (.cons ?_ (.cons (by decide) .nil))))))))
  all_goals assumption

theorem fields?_localPart (h : m.Fits) (rest : Bytes) :
    fields? localSizes (m.localPart ++ rest) =
      some (localMark :: version :: m.common, m.nameBytes ++ (m.bytes ++ rest)) := by
  rw [localPart, List.append_assoc, List.append_assoc]
  exact fields?_record _ (.cons (by decide) (.cons (by decide) h.common))

theorem fields?_entry (h : m.Fits) {offset : Nat} (ho : offset < 0x100000000) (rest : Bytes) :
    fields? entrySizes (m.entry offset ++ rest) =
      some (entryMark :: version :: version :: 0 :: m.common ++ [0, 0, 0, 0, offset],
        m.nameBytes ++ rest) := by
  rw [entry, List.append_assoc]
  refine fields?_record _ (.cons (by decide) (.cons (by decide) (.cons (by decide)
    (.cons (by decide) (List.rel_append h.common ?_)))))
  exact .cons (by decide) (.cons (by decide) (.cons (by decide) (.cons (by decide)
    (.cons ho .nil))))

theorem Fits.readName (h : m.Fits) : readName m.flags m.nameBytes = .ok m.name := by
  have hn := h.name
  cases hr : Archive.readName m.flags m.nameBytes with
  | ok name => simpa [hr, Except.toOption] using hn
  | error fault => simp [hr, Except.toOption] at hn

end Member

/-! ## The directory -/

/-- The entries of members that are written from a place on. -/
def entriesFrom (offset : Nat) : List Member → List Entry
  | [] => []
  | m :: rest => m.entryAt offset :: entriesFrom (offset + m.localPart.length) rest

/-- The size of what is written of members in front of the directory. -/
def partsSize (members : List Member) : Nat := (members.flatMap Member.localPart).length

theorem partsSize_cons (m : Member) (members : List Member) :
    partsSize (m :: members) = m.localPart.length + partsSize members := by
  simp [partsSize]

theorem extended?_nil (e : Entry) : e.extended? [] = some e := by
  simp [Entry.extended?, parts?]

theorem entries_directory : ∀ {members : List Member} {offset fuel : Nat},
    (∀ m ∈ members, m.Fits) → offset + partsSize members ≤ 0x100000000 →
      (directory offset members).length < fuel →
        entries 0 (directory offset members) fuel = .ok (entriesFrom offset members)
  | _, _, 0, _, _, hfuel => absurd hfuel (Nat.not_lt_zero _)
  | [], _, _ + 1, _, _, _ => rfl
  | m :: members, offset, fuel + 1, hm, hsize, hfuel => by
    have h := hm m List.mem_cons_self
    rw [partsSize_cons, m.length_localPart] at hsize
    have hlen : 0 < (m.entry offset).length := by
      rw [Member.entry, List.length_append,
        length_record (by simp [entrySizes, Member.common])]
      exact Nat.add_pos_left (by decide) _
    have hd : directory offset (m :: members) =
        m.entry offset ++ directory (offset + m.localPart.length) members := rfl
    rw [hd, List.length_append] at hfuel
    have hne : m.entry offset ++ directory (offset + m.localPart.length) members ≠ [] := by
      intro he
      simp [(List.append_eq_nil_iff.1 he).1] at hlen
    have ih := @entries_directory members (offset + m.localPart.length) fuel
      (fun x hx => hm x (List.mem_cons_of_mem _ hx)) (by rw [m.length_localPart]; omega) (by omega)
    rw [hd, entries, if_neg hne, Member.fields?_entry h (by omega)]
    simp [Member.common, h.readName, maxVersion, Member.version, ih, extended?_nil, bind,
      Except.bind, pure, Except.pure, entriesFrom, Member.entryAt]

/-- The same entries, each with the place where what is written of its member ends. -/
def boundsFrom (offset : Nat) : List Member → List (Entry × Int)
  | [] => []
  | m :: rest => (m.entryAt offset, ((offset + m.localPart.length : Nat) : Int)) ::
      boundsFrom (offset + m.localPart.length) rest

theorem le_place : ∀ {members : List Member} {offset : Nat}, ∀ e ∈ entriesFrom offset members,
    (offset : Int) ≤ e.place
  | [], _, e, he => by cases he
  | m :: members, offset, e, he => by
    rcases List.mem_cons.1 he with rfl | he
    · exact Int.le_refl _
    · have := le_place e he
      push_cast at this
      omega

/-- The first of the places that entries have from an offset on. -/
theorem min?_place (members : List Member) (offset : Nat) :
    (((entriesFrom offset members).map (·.place)).min?).getD
      ((offset + partsSize members : Nat) : Int) = offset := by
  cases members with
  | nil => simp [entriesFrom, partsSize]
  | cons m members =>
    have hmin : ((entriesFrom offset (m :: members)).map (·.place)).min? = some (offset : Int) := by
      refine List.min?_eq_some_iff.2 ⟨List.mem_cons_self, fun b hb => ?_⟩
      obtain ⟨e, he, rfl⟩ := List.mem_map.1 hb
      exact le_place e he
    rw [hmin]
    rfl

theorem withLimits_entriesFrom : ∀ {members : List Member} {start offset : Nat}
    {before : List Entry}, (∀ e ∈ before, e.place < offset) → start = offset + partsSize members →
      withLimits start before (entriesFrom offset members) = boundsFrom offset members
  | [], _, _, _, _, _ => rfl
  | m :: members, start, offset, before, hbefore, hstart => by
    have hpos : offset < offset + m.localPart.length := by
      rw [m.length_localPart]
      omega
    have hfront : before.filter ((m.entryAt offset).place ≤ ·.place) = [] :=
      List.filter_eq_nil_iff.2 fun e he hle =>
        absurd (of_decide_eq_true hle) (Int.not_le.2 (hbefore e he))
    have hback : (entriesFrom (offset + m.localPart.length) members).filter
        ((m.entryAt offset).place < ·.place) = entriesFrom (offset + m.localPart.length) members :=
      List.filter_eq_self.2 fun e he => by
        have := le_place e he
        exact decide_eq_true (show (offset : Int) < e.place by omega)
    have hs : start = offset + m.localPart.length + partsSize members := by
      rw [hstart, partsSize_cons, Nat.add_assoc]
    have ih := @withLimits_entriesFrom members start (offset + m.localPart.length)
      (m.entryAt offset :: before) ?_ hs
    · have hmin := min?_place members (offset + m.localPart.length)
      rw [← hs] at hmin
      rw [entriesFrom, withLimits, ih, boundsFrom, hfront, hback, List.nil_append, hmin]
    · refine List.forall_mem_cons.2 ⟨?_, fun e he => ?_⟩
      · exact Int.ofNat_lt.2 hpos
      · have := hbefore e he
        push_cast
        omega

/-! ## Reading what has been written -/

theorem Member.flags_bits (m : Member) :
    m.flags &&& 0x20 = 0 ∧ m.flags &&& 0x40 = 0 ∧ m.flags &&& 1 = 0 := by
  rcases m.flags_cases with hf | hf <;> rw [hf] <;> decide

theorem packed_entryAt {m : Member} (h : m.Fits) {front : Bytes} (rest : Bytes)
    (hplace : (front.length : Int) < Entry.noSuchPlace) :
    (m.entryAt front.length).packed ((front.length + m.localPart.length : Nat) : Int)
      (front ++ (m.localPart ++ rest)) = .ok m.bytes := by
  have hdrop : (front ++ (m.localPart ++ rest)).drop (m.entryAt front.length).place.toNat =
      m.localPart ++ rest := List.drop_left' (by simp)
  have hw : width localSizes = 30 := by decide
  have hend : ¬((front.length + m.localPart.length : Nat) : Int) <
      min (front.length + ((30 : Nat) + m.nameBytes.length + (0 : Nat)) : Int)
        (front ++ (m.localPart ++ rest)).length + m.bytes.length := by
    rw [m.length_localPart]
    omega
  have hin : ¬((m.entryAt front.length).place < -Entry.noSuchPlace ∨
      Entry.noSuchPlace ≤ (m.entryAt front.length).place) := by
    have hpos : 0 < Entry.noSuchPlace := by decide
    rw [Member.entryAt_place]
    omega
  obtain ⟨h₁, h₂, h₃⟩ := m.flags_bits
  rw [Entry.packed, if_neg hin, if_neg (by simp), hdrop, Member.fields?_localPart h]
  simp only [Member.common, hw]
  simp only [Member.entryAt, h₁, h₂, h₃, h.readName, ne_eq, not_true, if_false, bind, Except.bind,
    List.take_left', List.drop_left', Nat.add_zero]
  rw [if_neg hend]
  rfl

theorem member?_entryAt {m : Member} (h : m.Fits) {front : Bytes} (rest : Bytes)
    (hplace : (front.length : Int) < Entry.noSuchPlace) :
    (m.entryAt front.length).member? ((front.length + m.localPart.length : Nat) : Int)
      (front ++ (m.localPart ++ rest)) = .ok (some m) := by
  have hshort : (m.entryAt front.length).shortName = m.name := h.cut
  have hfile : (m.entryAt front.length).isFolder = false := by
    rw [Entry.isFolder, hshort]
    exact decide_eq_false h.file
  have hread : (m.entryAt front.length).read ((front.length + m.localPart.length : Nat) : Int)
      (front ++ (m.localPart ++ rest)) = .ok m.bytes := by
    rw [Entry.read, packed_entryAt h rest hplace]
    simp [Entry.unpacked, Entry.lacks, Member.entryAt, bind, Except.bind, pure, Except.pure]
  simp only [Entry.member?, hshort, h.nonempty, hfile, hread, bind, Except.bind, pure, Except.pure,
    if_false, Bool.false_eq_true]

theorem mapM_boundsFrom {members : List Member} (front rest : Bytes)
    (hm : ∀ m ∈ members, m.Fits)
    (hsize : ((front.length + partsSize members : Nat) : Int) < Entry.noSuchPlace) :
    ((boundsFrom front.length members).mapM fun x => x.1.member? x.2
      (front ++ (members.flatMap Member.localPart ++ rest))) = .ok (members.map some) := by
  induction members generalizing front with
  | nil => rfl
  | cons m members ih =>
    rw [partsSize_cons] at hsize
    have hone := member?_entryAt (hm m List.mem_cons_self)
      (members.flatMap Member.localPart ++ rest) (show (front.length : Int) < _ by omega)
    have ih := ih (front ++ m.localPart) (fun x hx => hm x (List.mem_cons_of_mem _ hx))
      (by rwa [List.length_append, Nat.add_assoc])
    simp only [List.length_append, List.append_assoc] at ih
    simp only [boundsFrom, List.mapM_cons, List.flatMap_cons, List.append_assoc]
    rw [hone, ih]
    rfl

/-- What an archive has in front of its end. -/
def frontOf (members : List Member) : Bytes :=
  members.flatMap Member.localPart ++ directory 0 members

/-- Whether what stands in front of the end of an archive looks like the mark of a wide
directory. -/
def LooksWide (members : List Member) : Prop :=
  ofField (((frontOf members).drop ((frontOf members).length - width locatorSizes)).take 4) =
    locatorMark

instance (members : List Member) : Decidable (LooksWide members) :=
  inferInstanceAs (Decidable (_ = _))

theorem fields?_locator {bytes : Bytes} (h : 20 ≤ bytes.length) :
    fields? locatorSizes bytes = some ([ofField (bytes.take 4), ofField ((bytes.drop 4).take 4),
      ofField ((bytes.drop 8).take 8), ofField ((bytes.drop 16).take 4)], bytes.drop 20) := by
  rw [locatorSizes, fields?, if_neg (by omega), fields?, if_neg (by rw [List.length_drop]; omega),
    fields?, if_neg (by simp only [List.length_drop]; omega), fields?,
    if_neg (by simp only [List.length_drop]; omega), fields?]
  simp

theorem widen_written {source : Source} {members : List Member} {rest : Bytes} {ending : Ending}
    (hplace : ending.place = (frontOf members).length)
    (hlong : width locatorSizes ≤ (frontOf members).length) (hw : ¬LooksWide members) :
    ending.widen source (frontOf members ++ rest) = .ok ending := by
  have h20 : width locatorSizes = 20 := by decide
  rw [h20] at hlong
  have hd : (frontOf members ++ rest).drop ((frontOf members).length - 20) =
      (frontOf members).drop ((frontOf members).length - 20) ++ rest :=
    List.drop_append_of_le_length (by omega)
  have hl : ((frontOf members).drop ((frontOf members).length - 20)).length = 20 := by
    rw [List.length_drop]
    omega
  rw [LooksWide, h20] at hw
  rw [Ending.widen, recordBefore?, hplace, h20, if_neg (by omega), hd,
    fields?_locator (by rw [List.length_append]; omega),
    List.take_append_of_le_length (by omega)]
  simp [hw]

/-- Whether there is room for what an archive with the members says about itself. -/
structure Room (members : List Member) : Prop where
  count : members.length < 0x10000
  parts : partsSize members < 0x100000000
  directory : (directory 0 members).length < 0x100000000

instance (members : List Member) : Decidable (Room members) :=
  decidable_of_iff (members.length < 0x10000 ∧ partsSize members < 0x100000000 ∧
      (directory 0 members).length < 0x100000000)
    ⟨fun ⟨a, b, c⟩ => ⟨a, b, c⟩, fun ⟨a, b, c⟩ => ⟨a, b, c⟩⟩

/-- The end of an archive. -/
def endingOf (members : List Member) : Bytes :=
  record endSizes [endMark, 0, 0, members.length, members.length, (directory 0 members).length,
    partsSize members, 0]

theorem length_endingOf (members : List Member) : (endingOf members).length = 22 := by
  rw [endingOf, length_record (by simp [endSizes])]
  rfl

theorem ending?_written {members : List Member} (h : Room members) :
    ending? (frontOf members ++ endingOf members) =
      some ⟨(directory 0 members).length, partsSize members, (frontOf members).length⟩ := by
  have hw : width endSizes = 22 := by decide
  have hsize : (frontOf members ++ endingOf members).length = (frontOf members).length + 22 := by
    rw [List.length_append, length_endingOf]
  have hat : endingAt? (frontOf members ++ endingOf members) (frontOf members).length =
      some ⟨(directory 0 members).length, partsSize members, (frontOf members).length⟩ := by
    have hcount : members.length < Nat.pow 256 2 := h.count
    have hf := @fields?_record endSizes [endMark, 0, 0, members.length, members.length,
      (directory 0 members).length, partsSize members, 0] []
      (.cons (by decide) (.cons (by decide) (.cons (by decide) (.cons hcount (.cons hcount
        (.cons h.directory (.cons h.parts (.cons (by decide) .nil))))))))
    rw [List.append_nil] at hf
    rw [endingAt?, List.drop_left' rfl, endingOf, hf]
    simp
  have hlast : (frontOf members ++ endingOf members).drop ((frontOf members).length + 20) =
      [0, 0] := by
    rw [List.drop_append, List.drop_eq_nil_of_le (by omega), Nat.add_sub_cancel_left]
    simp [endingOf, record, endSizes, field]
  simp only [ending?, hsize, hw, if_neg (show ¬(frontOf members).length + 22 < 22 by omega),
    Nat.add_sub_cancel, hat]
  rw [show (frontOf members).length + 22 - 2 = (frontOf members).length + 20 by omega, hlast,
    if_pos rfl]

theorem readDirectory_written {source : Source} {members : List Member} (hm : ∀ m ∈ members, m.Fits)
    (hroom : Room members) (hlong : width locatorSizes ≤ (frontOf members).length)
    (hwide : ¬LooksWide members) :
    readDirectory source (frontOf members ++ endingOf members) =
      .ok (entriesFrom 0 members, partsSize members) := by
  have hfront : (frontOf members).length = partsSize members + (directory 0 members).length := by
    rw [frontOf, List.length_append]
    rfl
  have hdir : ((frontOf members ++ endingOf members).drop (partsSize members)).take
      (directory 0 members).length = directory 0 members := by
    rw [frontOf, List.append_assoc, partsSize, List.drop_left' rfl, List.take_left' rfl]
  have hentries := @entries_directory members 0 ((directory 0 members).length + 1) hm
    (by have := hroom.parts; omega) (Nat.lt_succ_self _)
  have hwiden := @widen_written source members (endingOf members)
    ⟨(directory 0 members).length, partsSize members, (frontOf members).length⟩ rfl hlong hwide
  have hstart : (frontOf members).length - (directory 0 members).length = partsSize members := by
    omega
  simp only [readDirectory, ending?_written hroom, hwiden, bind, Except.bind, hstart, hdir]
  rw [if_neg (by omega), Int.sub_self, hentries]
  rfl

/-- Whether members can be written into an archive that needs no more than the oldest format. -/
structure Ordinary (members : List Member) : Prop where
  nonempty : members ≠ []
  fits : ∀ m ∈ members, m.Fits
  room : Room members
  narrow : ¬LooksWide members

instance (members : List Member) : Decidable (Ordinary members) :=
  decidable_of_iff (members ≠ [] ∧ (∀ m ∈ members, m.Fits) ∧ Room members ∧ ¬LooksWide members)
    ⟨fun ⟨a, b, c, d⟩ => ⟨a, b, c, d⟩, fun ⟨a, b, c, d⟩ => ⟨a, b, c, d⟩⟩

/-- Members that have been written into an archive are read out of it. -/
theorem read_write {source : Source} {members : List Member} {bytes : Bytes}
    (ho : Ordinary members) (h : write members = .ok bytes) :
    read source bytes = .ok members := by
  obtain ⟨hne, hm, hroom, hwide⟩ := ho
  have hlong : width locatorSizes ≤ (frontOf members).length := by
    obtain ⟨m, rest, rfl⟩ := List.exists_cons_of_ne_nil hne
    have hw : width locatorSizes = 20 := by decide
    rw [frontOf, List.length_append, List.flatMap_cons, List.length_append, m.length_localPart]
    omega
  obtain rfl : frontOf members ++ endingOf members = bytes := by
    rw [write] at h
    split at h
    · cases h
    · exact Except.ok.inj h
  have hparts := mapM_boundsFrom [] (directory 0 members ++ endingOf members) hm (by
    have hp := hroom.parts
    have hfar : (0x100000000 : Int) < Entry.noSuchPlace := by decide
    rw [List.length_nil]
    omega)
  have hlimits := @withLimits_entriesFrom members (partsSize members) 0 [] (by simp) (by simp)
  rw [List.nil_append, ← List.append_assoc] at hparts
  simp only [read, readDirectory_written hm hroom hlong hwide, bind, Except.bind, hlimits]
  rw [← frontOf] at hparts
  simp only [List.length_nil] at hparts
  rw [hparts]
  simp [pure, Except.pure]

/-- Whether members can be written, and what is written of them is read as these members. -/
def ReadsBack (members : List Member) : Prop :=
  ∃ bytes, write members = .ok bytes ∧ read .memory bytes = .ok members

theorem Member.nameFault?_eq_none {m : Member} :
    m.nameFault? = none ↔ m.nameBytes ≠ [] ∧ m.nameBytes.length ≤ maxNameSize := by
  unfold nameFault?
  split
  · next h => simp [h]
  · next h => simp [h]

/-- Members with names that fit can be written. -/
theorem exists_write {members : List Member} (h : ∀ m ∈ members, m.nameFault? = none) :
    ∃ bytes, write members = .ok bytes := by
  rw [write, List.findSome?_eq_none_iff.2 h]
  exact ⟨_, rfl⟩

/-- What keeps members from being written is the name of one of them. -/
theorem exists_of_write_error {members : List Member} {fault : NameFault}
    (h : write members = .error fault) : ∃ m ∈ members, m.nameFault? = some fault := by
  rw [write] at h
  split at h
  · next f hf => exact Except.error.inj h ▸ List.exists_of_findSome?_eq_some hf
  · cases h

theorem Ordinary.exists_write {members : List Member} (h : Ordinary members) :
    ∃ bytes, write members = .ok bytes := by
  refine Archive.exists_write fun m hm => Member.nameFault?_eq_none.2 ⟨fun hnil => ?_, ?_⟩
  · have hf := h.fits m hm
    have hname : m.name ≠ "" := hf.nonempty
    rw [Member.nameBytes, nameBytes, hf.cut] at hnil
    exact Text.toUtf8_ne_nil (mt String.toList_eq_nil_iff.1 hname) hnil
  · exact Nat.le_of_lt_succ (h.fits m hm).short

theorem Ordinary.readsBack {members : List Member} (h : Ordinary members) : ReadsBack members := by
  obtain ⟨bytes, hw⟩ := h.exists_write
  exact ⟨bytes, hw, read_write h hw⟩

/-! ## Names -/

theorem exists_of_mapM {ε α β : Type} {f : α → Except ε β} : ∀ {l : List α} {found : List β},
    l.mapM f = .ok found → ∀ b ∈ found, ∃ a ∈ l, f a = .ok b
  | [], _, h, b, hb => by
    cases h
    cases hb
  | a :: l, found, h, b, hb => by
    rw [List.mapM_cons] at h
    cases ha : f a with
    | error e => simp [ha, bind, Except.bind] at h
    | ok b' =>
      cases hl : l.mapM f with
      | error e => simp [ha, hl, bind, Except.bind] at h
      | ok rest =>
        simp only [ha, hl, bind, Except.bind, pure, Except.pure, Except.ok.injEq] at h
        rcases List.mem_cons.1 (h ▸ hb) with rfl | hb
        · exact ⟨a, List.mem_cons_self, ha⟩
        · obtain ⟨a', ha', h⟩ := exists_of_mapM hl b hb
          exact ⟨a', List.mem_cons_of_mem _ ha', h⟩

theorem upToNull_upToNull (s : String) : upToNull (upToNull s) = upToNull s := by
  have ht : ∀ cs : List Char, (cs.takeWhile (· ≠ '\x00')).takeWhile (· ≠ '\x00') =
      cs.takeWhile (· ≠ '\x00') := fun cs =>
    List.takeWhile_eq_self_iff.2 fun c hc => by simpa using List.mem_takeWhile_imp hc
  simp only [upToNull, String.toList_ofList, ht]

theorem named_of_member? {e : Entry} {limit : Int} {bytes : Bytes} {m : Member}
    (h : e.member? limit bytes = .ok (some m)) : m.nameBytes ≠ [] := by
  by_cases hs : e.shortName = ""
  · simp only [Entry.member?, hs, if_true, bind, Except.bind] at h
    cases h
  by_cases hf : e.isFolder
  · simp only [Entry.member?, hs, hf, if_false, if_true, bind, Except.bind, pure, Except.pure] at h
    cases h
  cases hr : e.read limit bytes with
  | error f =>
    simp only [Entry.member?, hs, hf, hr, if_false, bind, Except.bind, pure, Except.pure] at h
    cases h
  | ok data =>
    simp only [Entry.member?, hs, hf, hr, if_false, bind, Except.bind, pure, Except.pure] at h
    cases h
    have hs' : upToNull e.name ≠ "" := hs
    rw [Member.nameBytes, nameBytes, Entry.shortName, upToNull_upToNull]
    exact Text.toUtf8_ne_nil (by simpa using hs')

/-- What has been read has a name that can be written. -/
theorem named_of_read {source : Source} {bytes : Bytes} {members : List Member}
    (h : read source bytes = .ok members) : ∀ m ∈ members, m.nameBytes ≠ [] := by
  cases hd : readDirectory source bytes with
  | error f => simp [read, hd, bind, Except.bind] at h
  | ok x =>
    obtain ⟨all, start⟩ := x
    cases hm : (withLimits start [] all).mapM fun x => x.1.member? x.2 bytes with
    | error f => simp [read, hd, hm, bind, Except.bind] at h
    | ok found =>
      simp only [read, hd, hm, bind, Except.bind, pure, Except.pure, Except.ok.injEq] at h
      subst h
      intro m hin
      have hsome : some m ∈ found := by simpa using hin
      obtain ⟨x, -, hx⟩ := exists_of_mapM hm _ hsome
      exact named_of_member? hx

end MailMerge.Archive
