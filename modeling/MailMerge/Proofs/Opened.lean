import MailMerge.Proofs.Failures
import MailMerge.Proofs.Saved

/-!
# Opening bytes

Any bytes either open as a document whose main part has a body or fail with an error about the
document, unless what fails is one of ten faults of an archive that are handed on as they are
(`Archive.Stray`). Each of these has its cause in the archive: the locator of the wide end, a
header, or an entry of the directory with the data of its member. All else, the tree of the main
part included, fails as it should.
-/

namespace MailMerge

namespace Archive

open Text (Bytes)

/-! ## What an archive fails for -/

/-- A header of the given sizes stands in an archive: its numbers, and what is behind them. -/
def Header (sizes : List Nat) (bytes : Bytes) (ns : List Nat) (rest : Bytes) : Prop :=
  ∃ tail, tail <:+: bytes ∧ fields? sizes tail = some (ns, rest)

/-- An entry of the directory of an archive in memory. -/
def Listed (bytes : Bytes) (e : Entry) : Prop :=
  ∃ all start, readDirectory .memory bytes = .ok (all, start) ∧ e ∈ all

/-- The faults of an archive in memory that are not taken for faults of a document, each with what
it comes from. -/
inductive Stray (bytes : Bytes) : Fault → Prop
  | disks {ending : Ending} {disk place disks : Nat} (found : ending? bytes = some ending)
      (locator : recordBefore? .memory locatorSizes bytes ending.place =
        some [locatorMark, disk, place, disks]) (several : disk ≠ 0 ∨ 1 < disks) :
      Stray bytes .manyDisks
  | entryName {ns : List Nat} {rest : Bytes} {flags size : Nat}
      (header : Header entrySizes bytes ns rest) (mark : ns[0]? = some entryMark)
      (hflags : ns[4]? = some flags) (hsize : ns[11]? = some size) (utf8 : flags &&& utf8Flag ≠ 0)
      (invalid : Text.utf8? (rest.take size) = none) : Stray bytes .nameNotUtf8
  | memberName {ns : List Nat} {rest : Bytes} {flags size : Nat}
      (header : Header localSizes bytes ns rest) (mark : ns[0]? = some localMark)
      (hflags : ns[2]? = some flags) (hsize : ns[9]? = some size) (utf8 : flags &&& utf8Flag ≠ 0)
      (invalid : Text.utf8? (rest.take size) = none) : Stray bytes .nameNotUtf8
  | version {ns : List Nat} {rest : Bytes} {needed : Nat} (header : Header entrySizes bytes ns rest)
      (mark : ns[0]? = some entryMark) (hneeded : ns[2]? = some needed)
      (newer : maxVersion < needed) : Stray bytes (.unsupported (.version needed))
  | nameless {e : Entry} (listed : Listed bytes e) (empty : e.shortName = "") :
      Stray bytes .nameless
  | beforeStart {e : Entry} (listed : Listed bytes e) (before : e.place < 0) :
      Stray bytes (.beforeStart e.place.natAbs)
  | noPlace {e : Entry} (listed : Listed bytes e)
      (far : e.place < -Entry.noSuchPlace ∨ Entry.noSuchPlace ≤ e.place) : Stray bytes .noPlace
  | patch {e : Entry} (listed : Listed bytes e) (flag : e.flags &&& 0x20 ≠ 0) :
      Stray bytes (.unsupported .patch)
  | strongEncryption {e : Entry} (listed : Listed bytes e) (flag : e.flags &&& 0x40 ≠ 0) :
      Stray bytes (.unsupported .strongEncryption)
  | encrypted {e : Entry} (listed : Listed bytes e) (flag : e.flags &&& 1 ≠ 0) :
      Stray bytes (.encrypted e.shown)
  | method {e : Entry} (listed : Listed bytes e) (unknown : e.method ∉ [0, 8, 12, 14]) :
      Stray bytes (.unsupported .method)
  | cutOff {e : Entry} {limit : Int} {data : Bytes} (listed : Listed bytes e)
      (packed : e.packed limit bytes = .ok data) (ends : data.length < e.packedSize) :
      Stray bytes .cutOff
  | data {e : Entry} {limit : Int} {data : Bytes} (listed : Listed bytes e)
      (packed : e.packed limit bytes = .ok data) (deflated : e.method = 8)
      (corrupt : inflate? data = none) : Stray bytes .corruptData
  | code {e : Entry} {limit : Int} {data : Bytes} {fault : Lzma.Fault} (listed : Listed bytes e)
      (packed : e.packed limit bytes = .ok data) (coded : e.method = 14)
      (corrupt : Lzma.unpack data = .error fault) : Stray bytes (.corruptCode fault)

/-- Faults that are taken for those of a document, and stray ones. -/
def Faulty (bytes : Bytes) (f : Fault) : Prop :=
  f ∈ [.notArchive, .damaged, .corruptBlocks] ∨ Stray bytes f

variable {bytes : Bytes}

theorem faulty_damaged : Faulty bytes .damaged := .inl (by decide)

theorem fields?_suffix : ∀ {sizes ns : List Nat} {bytes rest : Bytes},
    fields? sizes bytes = some (ns, rest) → rest <:+ bytes
  | [], _, _, _, h => by
    obtain ⟨-, rfl⟩ := Prod.mk.inj (Option.some.inj h)
    exact List.suffix_rfl
  | size :: sizes, _, bytes, _, h => by
    rw [fields?] at h
    split at h
    · cases h
    · obtain ⟨⟨ns', rest'⟩, h', he⟩ := Option.map_eq_some_iff.1 h
      obtain ⟨-, rfl⟩ := Prod.mk.inj he
      exact (fields?_suffix h').trans (List.drop_suffix size bytes)

theorem isSome_mapM {α β : Type} {g : α → Option β} :
    ∀ {l : List α}, (∀ a ∈ l, (g a).isSome) → (l.mapM g).isSome
  | [], _ => rfl
  | a :: l, h => by
    obtain ⟨b, hb⟩ := Option.isSome_iff_exists.1 (h a List.mem_cons_self)
    obtain ⟨bs, hbs⟩ := Option.isSome_iff_exists.1
      (isSome_mapM fun a' ha => h a' (List.mem_cons_of_mem a ha))
    simp [List.mapM_cons, hb, hbs]

/-- A code page without marks decodes everything if all bytes have a character. -/
theorem isSome_decode? {page : Text.CodePage} (hm : page.marks = [])
    (h : ∀ n < 256, (if n < page.first then some (Char.ofNat n)
      else page.table[n - page.first]?.filter (· ≠ '\ufffd')).isSome) (name : Bytes) :
    (page.decode? name).isSome := by
  obtain ⟨cs, hcs⟩ := Option.isSome_iff_exists.1
    (isSome_mapM fun (b : UInt8) (_ : b ∈ name) => h b.toNat b.toNat_lt)
  rw [Text.CodePage.decode?, Option.bind_eq_bind, hcs, hm]
  rfl

theorem isSome_codePage437 : ∀ name, (Text.CodePage.codePage437.decode? name).isSome :=
  isSome_decode? rfl (by decide +kernel)

theorem readName_refuses {flags : Nat} {name : Bytes} :
    RefusesFor (fun f => f = .nameNotUtf8 ∧ flags &&& utf8Flag ≠ 0 ∧ Text.utf8? name = none)
      (readName flags name) := by
  intro f h
  simp only [readName] at h
  split at h
  · cases h
  · next hnone =>
    split at hnone
    · next hflag => exact ⟨(Except.error.inj h).symm, hflag, hnone⟩
    · exact absurd (isSome_codePage437 name) (by rw [hnone]; decide)

/-! ## The directory -/

theorem widen_refuses {e : Ending} (he : ending? bytes = some e) :
    RefusesFor (Stray bytes) (e.widen .memory bytes) := by
  rw [Ending.widen]
  split
  · next mark disk place disks hlocator =>
    split
    · exact refusesFor_ok
    · next hmark =>
      obtain rfl := not_not.1 hmark
      split
      · next hseveral => exact refusesFor_error (.disks he hlocator hseveral)
      · dsimp only
        split
        · exact refusesFor_ok
        · rw [if_neg (by simp)]
          exact refusesFor_ok
  · exact refusesFor_ok

theorem entries_refuses {shift : Int} : ∀ {fuel : Nat} {tail : Bytes}, tail <:+: bytes →
    RefusesFor (Faulty bytes) (entries shift tail fuel)
  | 0, _, _ => refusesFor_ok
  | fuel + 1, tail, ht => by
    rw [entries]
    split
    · exact refusesFor_ok
    split
    · next mark _ version _ flags method _ _ sum packedSize size nameSize extraSize commentSize _ _
        attributes place rest hread =>
      have hheader : Header entrySizes bytes _ rest := ⟨tail, ht, hread⟩
      refine RefusesFor.unless (fun _ => faulty_damaged) fun hmark => ?_
      obtain rfl := not_not.1 hmark
      refine RefusesFor.bind (fun f hf => ?_) fun name _ => ?_
      · obtain ⟨rfl, hutf8, hinvalid⟩ := readName_refuses f hf
        exact .inr (.entryName hheader rfl rfl rfl hutf8 hinvalid)
      refine RefusesFor.unless (fun hnewer => .inr (.version hheader rfl rfl hnewer)) fun _ => ?_
      dsimp only
      split
      · exact refusesFor_error faulty_damaged
      · refine RefusesFor.bind (entries_refuses ?_) fun _ _ => refusesFor_ok
        exact ((List.drop_suffix _ rest).trans (fields?_suffix hread)).isInfix.trans ht
    · exact refusesFor_error faulty_damaged

theorem readDirectory_refuses : RefusesFor (Faulty bytes) (readDirectory .memory bytes) := by
  rw [readDirectory]
  split
  · exact refusesFor_error (.inl (by decide))
  · next ending hending =>
    refine RefusesFor.bind (fun f hf => .inr (widen_refuses hending f hf)) fun e _ => ?_
    split
    · exact refusesFor_error faulty_damaged
    · refine RefusesFor.bind (entries_refuses ?_) fun _ _ => refusesFor_ok
      exact (List.take_prefix _ _).isInfix.trans (List.drop_suffix _ bytes).isInfix

/-! ## Members -/

variable {e : Entry} {limit : Int}

theorem packed_refuses (he : Listed bytes e) :
    RefusesFor (Faulty bytes) (e.packed limit bytes) := by
  rw [Entry.packed]
  split
  · next hfar => exact refusesFor_error (.inr (.noPlace he hfar))
  split
  · next hplace => exact refusesFor_error (.inr (.beforeStart he hplace))
  split
  · next mark _ flags _ _ _ _ _ _ nameSize extraSize rest hread =>
    have hheader : Header localSizes bytes _ rest := ⟨_, (List.drop_suffix _ bytes).isInfix, hread⟩
    refine RefusesFor.unless (fun _ => faulty_damaged) fun hmark => ?_
    obtain rfl := not_not.1 hmark
    refine RefusesFor.unless (fun hflag => .inr (.patch he hflag)) fun _ => ?_
    refine RefusesFor.unless (fun hflag => .inr (.strongEncryption he hflag)) fun _ => ?_
    refine RefusesFor.bind (fun f hf => ?_) fun name _ => ?_
    · obtain ⟨rfl, hutf8, hinvalid⟩ := readName_refuses f hf
      exact .inr (.memberName hheader rfl rfl rfl hutf8 hinvalid)
    refine RefusesFor.unless (fun _ => faulty_damaged) fun _ => ?_
    refine RefusesFor.unless (fun _ => faulty_damaged) fun _ => ?_
    exact RefusesFor.unless (fun hflag => .inr (.encrypted he hflag)) fun _ => refusesFor_ok
  · exact refusesFor_error faulty_damaged

theorem unpacked_refuses {data : Bytes} (he : Listed bytes e)
    (hd : e.packed limit bytes = .ok data) :
    RefusesFor (Faulty bytes) (Entry.unpacked e.method data) := by
  unfold Entry.unpacked
  split
  · exact refusesFor_ok
  · next hmethod =>
    split
    · exact refusesFor_ok
    · next hcorrupt => exact refusesFor_error (.inr (.data he hd hmethod hcorrupt))
  · split
    · exact refusesFor_ok
    · exact refusesFor_error (.inl (by decide))
  · next hmethod =>
    cases hcode : Lzma.unpack data with
    | ok _ => exact refusesFor_ok
    | error fault => exact refusesFor_error (.inr (.code he hd hmethod hcode))
  · next h₀ h₈ h₁₂ h₁₄ =>
    exact refusesFor_error (.inr (.method he (by
      simp only [List.mem_cons, List.not_mem_nil, or_false]
      rintro (h | h | h | h)
      exacts [h₀ h, h₈ h, h₁₂ h, h₁₄ h])))

theorem member?_refuses (he : Listed bytes e) :
    RefusesFor (Faulty bytes) (e.member? limit bytes) := by
  rw [Entry.member?]
  split
  · next hempty => exact refusesFor_error (.inr (.nameless he hempty))
  split
  · exact refusesFor_ok
  refine RefusesFor.bind ?_ fun _ _ => refusesFor_ok
  refine (packed_refuses he).bind fun data hd => (unpacked_refuses he hd).bind fun _ _ => ?_
  refine RefusesFor.unless (fun hlacks => .inr (.cutOff he hd hlacks.1)) fun _ => ?_
  dsimp only
  split
  · exact refusesFor_error faulty_damaged
  · exact refusesFor_ok

theorem mem_of_mem_withLimits {start : Nat} {x : Entry × Int} : ∀ {all before : List Entry},
    x ∈ withLimits start before all → x.1 ∈ all
  | [], _, h => by cases h
  | e :: all, before, h => by
    rcases List.mem_cons.1 h with rfl | h
    · exact List.mem_cons_self
    · exact List.mem_cons_of_mem e (mem_of_mem_withLimits h)

theorem read_refuses : RefusesFor (Faulty bytes) (read .memory bytes) := by
  refine readDirectory_refuses.bind fun found hfound => ?_
  obtain ⟨all, start⟩ := found
  refine RefusesFor.bind (RefusesFor.mapM fun x hx => ?_) fun _ _ => refusesFor_ok
  exact member?_refuses ⟨all, start, hfound, mem_of_mem_withLimits hx⟩

end Archive

namespace Document

open Xml Word

/-! ## Opening -/

theorem fault_of_faulty {bytes : Text.Bytes} {f : Archive.Fault} (h : Archive.Faulty bytes f) :
    (∃ fault, Package.fault .memory f = .document fault []) ∨
      Archive.Stray bytes f ∧ (Package.fault .memory f).category ≠ .document := by
  rcases h with h | h
  · left
    simp only [List.mem_cons, List.not_mem_nil, or_false] at h
    rcases h with rfl | rfl | rfl <;> exact ⟨_, rfl⟩
  · exact .inr ⟨h, by cases h <;> simp [Package.fault, Error.category]⟩

theorem tree?_refuses {name : String} {d : Document} :
    RefusesFor (fun err => ∃ fault, err = .document fault []) (d.tree? name) := by
  unfold tree?
  split
  · exact refusesFor_ok
  split
  · exact refusesFor_error ⟨_, rfl⟩
  next p _ =>
    rw [Package.tree?, Package.document?]
    split
    · exact refusesFor_ok
    split
    · exact refusesFor_ok
    · exact refusesFor_error ⟨_, rfl⟩

theorem openArchive_fails {path? : Option Files.Path} {source : Archive.Source}
    {bytes : Text.Bytes} : FailsFor (fun err => Package.ofArchive source bytes = .error err ∨
      ∃ fault, err = .document fault []) (openArchive source bytes) (unread path?) := by
  rw [openArchive, FailsFor]
  split
  · next err herr => exact .inl herr
  simp only [meets_bind, meets_modify, meets_get]
  refine (partRoot?_looked _ _).mono ?_ fun err _ h => .inr (tree?_refuses err h.2)
  rintro root? d -
  split
  · exact .inr ⟨_, rfl⟩
  simp only [meets_bind, meets_modify, meets_view]
  split
  · trivial
  · exact .inr ⟨_, rfl⟩

/-- An archive with a main part that is said to be compressed and is not. -/
def uncompressed : Text.Bytes :=
  let name := Text.toUtf8 PartName.main.toList
  let common := [0, 8, 0, 0x21, 0, 1, 1, name.length, 0]
  let header := Archive.record Archive.localSizes (Archive.localMark :: 20 :: common) ++ name
  let entry := Archive.record Archive.entrySizes
    (Archive.entryMark :: 20 :: 20 :: 0 :: common ++ [0, 0, 0, 0, 0]) ++ name
  header ++ [7] ++ entry ++ Archive.record Archive.endSizes
    [Archive.endMark, 0, 0, 1, 1, entry.length, header.length + 1, 0]

end Document

end MailMerge
