import MailMerge.Document
import MailMerge.Proofs.Archived

/-!
# Members of packages

A package that has been opened has no name twice and none that is empty (`Package.Sane`), so it can
be written, and what is read back is the package. Parts that are written into it take the places of
members: the names stay what they are, and so do all other members (`names_writeParts`,
`bytes?_writeParts_of_notMem`).
-/

namespace MailMerge

open Text (Bytes)

namespace Package

variable {p : Package} {m : Archive.Member} {name : String}

theorem has_iff : p.has name = true ↔ name ∈ p.names := by
  simp [has, bytes?, names]

theorem bytes?_eq_none : p.bytes? name = none ↔ name ∉ p.names := by
  simp [bytes?, names]

theorem put_of_mem (h : m.name ∈ p.names) : p.put m =
    { p with members := p.members.map fun m' => if m'.name = m.name then m else m' } := by
  rw [put, if_pos (has_iff.2 h)]

theorem put_of_notMem (h : m.name ∉ p.names) :
    p.put m = { p with members := p.members ++ [m] } := by
  rw [put, if_neg (mt has_iff.1 h)]

/-- A member has the name of the one whose place it takes. -/
theorem name_put (m m' : Archive.Member) :
    (if m'.name = m.name then m else m').name = m'.name := by
  split
  · next he => exact he.symm
  · rfl

theorem names_put_of_mem (h : m.name ∈ p.names) : (p.put m).names = p.names := by
  rw [put_of_mem h, names, names, List.map_map]
  exact List.map_congr_left fun m' _ => name_put m m'

/-- What is found by a name is found in the same place as before. -/
theorem bytes?_put_of_mem (h : m.name ∈ p.names) (name : String) : (p.put m).bytes? name =
    (p.members.find? fun m' => m'.name = name).map fun m' =>
      (if m'.name = m.name then m else m').bytes := by
  have hf : (fun m' => decide (m'.name = name)) ∘
      (fun m' : Archive.Member => if m'.name = m.name then m else m') =
        fun m' => decide (m'.name = name) := by
    funext m'
    rw [Function.comp_apply, name_put]
  rw [put_of_mem h, bytes?, List.find?_map, hf, Option.map_map]
  rfl

theorem bytes?_put_of_ne (h : name ≠ m.name) : (p.put m).bytes? name = p.bytes? name := by
  by_cases hm : m.name ∈ p.names
  · rw [bytes?_put_of_mem hm, bytes?]
    cases hx : p.members.find? fun m' => m'.name = name with
    | none => rfl
    | some x =>
      have hn : x.name = name := by simpa using List.find?_some hx
      simp [hn, h]
  · rw [put_of_notMem hm, bytes?, List.find?_append, bytes?]
    simp [h.symm]

theorem bytes?_put_self (p : Package) (m : Archive.Member) :
    (p.put m).bytes? m.name = some m.bytes := by
  by_cases h : m.name ∈ p.names
  · rw [bytes?_put_of_mem h]
    obtain ⟨x, hx, hn⟩ := List.mem_map.1 h
    cases hy : p.members.find? fun m' => m'.name = m.name with
    | none => exact absurd hn (by simpa using List.find?_eq_none.1 hy x hx)
    | some y =>
      have hn : y.name = m.name := by simpa using List.find?_some hy
      simp [hn]
  · rw [put_of_notMem h, bytes?, List.find?_append, Option.map_or, ← bytes?, bytes?_eq_none.2 h]
    simp

theorem names_subset_put (p : Package) (m : Archive.Member) : p.names ⊆ (p.put m).names := by
  by_cases h : m.name ∈ p.names
  · rw [names_put_of_mem h]
    exact List.Subset.refl _
  · rw [put_of_notMem h, names, names, List.map_append]
    exact List.subset_append_left _ _

/-- No name is that of two members, and every name can be written. -/
structure Sane (p : Package) : Prop where
  distinct : p.names.Nodup
  named : ∀ m ∈ p.members, m.nameBytes ≠ []

theorem Sane.put (h : p.Sane) (hm : m.nameBytes ≠ []) : (p.put m).Sane := by
  by_cases hn : m.name ∈ p.names
  · refine ⟨names_put_of_mem hn ▸ h.distinct, fun m' hm' => ?_⟩
    rw [put_of_mem hn] at hm'
    obtain ⟨x, hx, rfl⟩ := List.mem_map.1 hm'
    split
    · exact hm
    · exact h.named x hx
  · refine ⟨?_, fun m' hm' => ?_⟩
    · rw [put_of_notMem hn, names, List.map_append]
      exact List.nodup_append.2 ⟨h.distinct, by simp, by simpa [names] using hn⟩
    · rw [put_of_notMem hn] at hm'
      rcases List.mem_append.1 hm' with hm' | hm'
      · exact h.named m' hm'
      · exact List.mem_singleton.1 hm' ▸ hm

theorem Sane.foldl_put : ∀ {l : List Archive.Member} {p : Package}, p.Sane →
    (∀ m ∈ l, m.nameBytes ≠ []) → (l.foldl Package.put p).Sane
  | [], _, hp, _ => hp
  | m :: _, _, hp, h => (hp.put (h m List.mem_cons_self)).foldl_put fun m' hm' =>
      h m' (List.mem_cons_of_mem _ hm')

theorem sane_ofMembers {members : List Archive.Member} (h : ∀ m ∈ members, m.nameBytes ≠ []) :
    (ofMembers members).Sane := by
  have hempty : empty.Sane := ⟨.nil, by simp [empty]⟩
  exact hempty.foldl_put h

theorem sane_ofArchive {source : Archive.Source} {bytes : Bytes}
    (h : ofArchive source bytes = .ok p) : p.Sane := by
  rw [ofArchive] at h
  split at h
  · next members hread =>
    obtain rfl := Except.ok.inj h
    exact sane_ofMembers (Archive.named_of_read hread)
  · cases h

theorem members_foldl_put : ∀ {l : List Archive.Member} {p : Package},
    (p.names ++ l.map (·.name)).Nodup → (l.foldl Package.put p).members = p.members ++ l
  | [], p, _ => (List.append_nil _).symm
  | m :: l, p, h => by
    have hm : m.name ∉ p.names := fun hm =>
      (List.nodup_append.1 h).2.2 _ hm m.name (by simp) rfl
    rw [List.foldl_cons, put_of_notMem hm, members_foldl_put]
    · simp
    · simpa [names] using h

/-- Members with different names are those of the package that they make. -/
theorem members_ofMembers (h : p.names.Nodup) : (ofMembers p.members).members = p.members :=
  members_foldl_put (by simpa [names, empty] using h)

theorem bytes?_congr {q : Package} (h : q.members = p.members) : q.bytes? = p.bytes? := by
  funext name
  rw [bytes?, h, bytes?]

theorem document?_congr {q : Package} (h : q.bytes? name = p.bytes? name) :
    q.document? name = p.document? name := by
  funext next
  rw [document?, h, document?]

/-- No name is too long either. -/
structure Writable (p : Package) : Prop extends p.Sane where
  short : ∀ name ∈ p.names, (Archive.nameBytes name).length ≤ Archive.maxNameSize

theorem Writable.put (h : p.Writable) (hm : m.nameBytes ≠ [])
    (hs : m.nameBytes.length ≤ Archive.maxNameSize) : (p.put m).Writable := by
  refine ⟨h.toSane.put hm, fun name hn => ?_⟩
  by_cases hp : m.name ∈ p.names
  · exact h.short name (names_put_of_mem hp ▸ hn)
  · rw [put_of_notMem hp, names, List.map_append] at hn
    rcases List.mem_append.1 hn with hn | hn
    · exact h.short name hn
    · exact List.mem_singleton.1 hn ▸ hs

/-- A package in which every name fits can be written. -/
theorem Writable.exists_write (h : p.Writable) :
    ∃ bytes, Archive.write p.members = .ok bytes :=
  Archive.exists_write fun m hm => Archive.Member.nameFault?_eq_none.2
    ⟨h.named m hm, h.short m.name (List.mem_map_of_mem hm)⟩

end Package

/-! ## Writing parts -/

namespace Document

variable {f : Xml.Forest}

theorem writeParts_cons {part : Part} {parts : List Part} {p : Package} :
    writeParts f (part :: parts) p = writeParts f parts (match part.document? f with
      | some x => p.putDocument part.name x
      | none => p) := rfl

theorem names_writeParts : ∀ {parts : List Part} {p : Package},
    (∀ part ∈ parts, part.name ∈ p.names) → (writeParts f parts p).names = p.names
  | [], _, _ => rfl
  | part :: parts, p, h => by
    have hp := h part List.mem_cons_self
    have hn : (match part.document? f with
        | some x => p.putDocument part.name x
        | none => p).names = p.names := by
      split
      · exact Package.names_put_of_mem hp
      · rfl
    rw [writeParts_cons, names_writeParts, hn]
    exact fun part' hp' => hn ▸ h part' (List.mem_cons_of_mem _ hp')

theorem sane_writeParts : ∀ {parts : List Part} {p : Package},
    (∀ part ∈ parts, part.name ∈ p.names) → p.Sane → (writeParts f parts p).Sane
  | [], _, _, hs => hs
  | part :: parts, p, h, hs => by
    obtain ⟨m, hm, hmn⟩ := List.mem_map.1 (h part List.mem_cons_self)
    rw [writeParts_cons]
    split
    · next x _ =>
      have hname : (⟨part.name, Text.toUtf8 x.write⟩ : Archive.Member).nameBytes ≠ [] := by
        have := hs.named m hm
        rwa [Archive.Member.nameBytes, hmn] at this
      refine sane_writeParts (fun part' hp' => ?_) (hs.put hname)
      rw [Package.putDocument, Package.names_put_of_mem (h part List.mem_cons_self)]
      exact h part' (List.mem_cons_of_mem _ hp')
    · exact sane_writeParts (fun part' hp' => h part' (List.mem_cons_of_mem _ hp')) hs

/-- What is no part stays as it is. -/
theorem bytes?_writeParts_of_notMem {name : String} : ∀ {parts : List Part} {p : Package},
    (∀ part ∈ parts, part.name ≠ name) → (writeParts f parts p).bytes? name = p.bytes? name
  | [], _, _ => rfl
  | part :: parts, p, h => by
    rw [writeParts_cons, bytes?_writeParts_of_notMem fun part' hp' =>
      h part' (List.mem_cons_of_mem _ hp')]
    split
    · exact Package.bytes?_put_of_ne (h part List.mem_cons_self).symm
    · rfl

/-- A part is written as the document that it is. -/
theorem bytes?_writeParts_of_mem {part : Part} {x : Xml.Document} (hx : part.document? f = some x) :
    ∀ {parts : List Part} {p : Package}, (parts.map (·.name)).Nodup →
      (∀ part ∈ parts, part.name ∈ p.names) → part ∈ parts →
        (writeParts f parts p).bytes? part.name = some (Text.toUtf8 x.write)
  | part' :: parts, p, hd, h, hm => by
    rw [List.map_cons, List.nodup_cons] at hd
    have hne : ∀ part'' ∈ parts, part''.name ≠ part'.name := fun part'' hp'' he =>
      hd.1 (he ▸ List.mem_map_of_mem hp'')
    have hp' := h part' List.mem_cons_self
    rw [writeParts_cons]
    rcases List.mem_cons.1 hm with rfl | hm
    · rw [bytes?_writeParts_of_notMem hne, hx]
      exact Package.bytes?_put_self p ⟨part.name, _⟩
    · refine bytes?_writeParts_of_mem hx hd.2 (fun part'' hp'' => ?_) hm
      split
      · rw [Package.putDocument, Package.names_put_of_mem hp']
        exact h part'' (List.mem_cons_of_mem _ hp'')
      · exact h part'' (List.mem_cons_of_mem _ hp'')

end Document

end MailMerge
