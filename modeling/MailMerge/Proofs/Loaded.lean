import MailMerge.Proofs.Assembled
import MailMerge.Proofs.Composed
import MailMerge.Proofs.Nested
import Mathlib.Data.List.Forall2

/-!
# Field data from files

What is loaded from a file are fields whose names and values are the texts of what the file has in
their place (`FieldsOf`), or it is said what is wrong with the path or the data. Some faults of JSON
and YAML are not taken for faults of the data and are handed on (`Stray`): those of JSON need long
numbers, or lists and mappings that the interpreter has no room for; those of YAML are scalars
without a value of their tag, nodes that lead too far, and values without a text. Tables have none.
-/

namespace MailMerge.FieldFile

open Files (Path Tree)

variable {room : Interpreter} {files : Tree} {path : Path} {given : Option String}
  {cs : List Char}

/-! ## Texts of mappings -/

/-- Fields have the texts of the entries of a mapping, each name once. -/
structure FieldsOf (room : Interpreter) (entries : List (Value × Value))
    (m : List (Points × Value)) : Prop where
  nodup : (m.map (·.1)).Nodup
  texts : ∀ x ∈ m, ∃ e ∈ entries, e.1.plain room.shows = .ok x.1 ∧
    ∃ ps, e.2.render room.rendering = .ok ps ∧ x.2 = .text ps
  all : ∀ e ∈ entries, e.1 ≠ .null →
    ∃ name, e.1.plain room.shows = .ok name ∧ name ∈ m.map (·.1)

theorem names_insert (name : Points) (v : Value) : ∀ m : List (Points × Value),
    (insert name v m).map (·.1) =
      if name ∈ m.map (·.1) then m.map (·.1) else m.map (·.1) ++ [name]
  | [] => rfl
  | (name', v') :: m => by
    rw [insert]
    by_cases h : name' = name
    · simp [h]
    · have ih := names_insert name v m
      rw [if_neg h, List.map_cons, ih]
      have hne : name ≠ name' := Ne.symm h
      by_cases hm : name ∈ m.map (·.1) <;> simp [hm, hne]

theorem mem_insert {name : Points} {v : Value} {x : Points × Value} :
    ∀ {m : List (Points × Value)},
    x ∈ insert name v m → x = (name, v) ∨ x ∈ m
  | [], h => .inl (List.mem_singleton.1 h)
  | (name', v') :: m, h => by
    rw [insert] at h
    split at h
    · exact (List.mem_cons.1 h).imp_right (List.mem_cons_of_mem _)
    · rcases List.mem_cons.1 h with rfl | h
      · exact .inr List.mem_cons_self
      · exact (mem_insert h).imp_right (List.mem_cons_of_mem _)

/-- The fields with those of one more entry. -/
def addEntry (room : Interpreter) (m : List (Points × Value)) :
    Value × Value → Except Value.TextFault (List (Points × Value))
  | (.null, _) => .ok m
  | (k, v) => do
    let name ← k.plain room.shows
    return insert name (.text (← v.render room.rendering)) m

theorem fields_eq (entries : List (Value × Value)) : fields room entries =
    ((entries.foldlM (addEntry room) []).mapError .noText).map
      fun entries => ⟨entries, room.shows⟩ := rfl

theorem addEntry_of_ne {k v : Value} (m : List (Points × Value)) (hk : k ≠ .null) :
    addEntry room m (k, v) = (do
      let name ← k.plain room.shows
      return insert name (.text (← v.render room.rendering)) m) := by
  cases k with
  | null => exact absurd rfl hk
  | _ => rfl

/-- An entry has a key that counts, and has no text or a value without one. -/
def Textless (room : Interpreter) (e : Value × Value) (fault : Value.TextFault) : Prop :=
  e.1 ≠ .null ∧ (e.1.plain room.shows = .error fault ∨ e.2.render room.rendering = .error fault)

theorem addEntry_refuses (m : List (Points × Value)) (e : Value × Value) :
    RefusesFor (Textless room e) (addEntry room m e) := by
  obtain ⟨k, v⟩ := e
  by_cases hk : k = .null
  · exact hk ▸ refusesFor_ok
  · rw [addEntry_of_ne m hk]
    refine RefusesFor.bind (fun fault h => ⟨hk, .inl h⟩) fun name _ => ?_
    exact RefusesFor.bind (fun fault h => ⟨hk, .inr h⟩) fun _ _ => refusesFor_ok

theorem FieldsOf.null {entries : List (Value × Value)} {m : List (Points × Value)}
    (h : FieldsOf room entries m) {e : Value × Value} (he : e.1 = .null) :
    FieldsOf room (entries ++ [e]) m where
  nodup := h.nodup
  texts x hx :=
    let ⟨e', he', ht⟩ := h.texts x hx
    ⟨e', List.mem_append_left _ he', ht⟩
  all e' he' hne := by
    rcases List.mem_append.1 he' with he' | he'
    · exact h.all e' he' hne
    · obtain rfl := List.mem_singleton.1 he'
      exact absurd he hne

theorem FieldsOf.insert {entries : List (Value × Value)} {m : List (Points × Value)}
    (h : FieldsOf room entries m) {e : Value × Value} {name text : Points}
    (hn : e.1.plain room.shows = .ok name) (ht : e.2.render room.rendering = .ok text) :
    FieldsOf room (entries ++ [e]) (insert name (.text text) m) where
  nodup := by
    rw [names_insert]
    split
    · exact h.nodup
    · next hnot =>
      exact List.nodup_append.2 ⟨h.nodup, by simp, fun a ha b hb he => hnot (by
        obtain rfl := List.mem_singleton.1 hb
        exact he ▸ ha)⟩
  texts x hx := by
    rcases mem_insert hx with rfl | hx
    · exact ⟨e, List.mem_append_right _ (List.mem_singleton.2 rfl), hn, text, ht, rfl⟩
    · obtain ⟨e', he', hx⟩ := h.texts x hx
      exact ⟨e', List.mem_append_left _ he', hx⟩
  all e' he' hne := by
    have hmem : ∀ n, n = name ∨ n ∈ m.map (·.1) →
        n ∈ (FieldFile.insert name (.text text) m).map (·.1) := by
      intro n hn
      rw [names_insert]
      split
      · next hin => exact hn.elim (fun h => h ▸ hin) id
      · exact List.mem_append.2 (hn.symm.imp_right List.mem_singleton.2)
    rcases List.mem_append.1 he' with he' | he'
    · obtain ⟨n, hn, hm⟩ := h.all e' he' hne
      exact ⟨n, hn, hmem n (.inr hm)⟩
    · obtain rfl := List.mem_singleton.1 he'
      exact ⟨name, hn, hmem name (.inl rfl)⟩

theorem FieldsOf.add {entries : List (Value × Value)} {m m' : List (Points × Value)}
    {e : Value × Value} (h : FieldsOf room entries m) (ha : addEntry room m e = .ok m') :
    FieldsOf room (entries ++ [e]) m' := by
  obtain ⟨k, v⟩ := e
  by_cases hk : k = .null
  · obtain rfl : m = m' := by
      rw [hk] at ha
      exact Except.ok.inj ha
    exact h.null hk
  · rw [addEntry_of_ne m hk] at ha
    obtain ⟨name, hn, ha⟩ := exists_of_bind ha
    obtain ⟨text, ht, ha⟩ := exists_of_bind ha
    obtain rfl := Except.ok.inj ha
    exact h.insert hn ht

theorem FieldsOf.foldlM : ∀ {rest entries : List (Value × Value)} {m m' : List (Points × Value)},
    FieldsOf room entries m → rest.foldlM (addEntry room) m = .ok m' →
      FieldsOf room (entries ++ rest) m'
  | [], _, _, _, h, hm => by
    obtain rfl := Except.ok.inj hm
    rwa [List.append_nil]
  | e :: rest, entries, m, m', h, hm => by
    rw [List.foldlM_cons] at hm
    obtain ⟨m₁, he, hm⟩ := exists_of_bind hm
    simpa using (h.add he).foldlM hm

theorem foldlM_refuses : ∀ (entries : List (Value × Value)) (m : List (Points × Value)),
    RefusesFor (fun fault => ∃ e ∈ entries, Textless room e fault)
      (entries.foldlM (addEntry room) m)
  | [], _ => refusesFor_ok
  | e :: entries, m => by
    rw [List.foldlM_cons]
    refine RefusesFor.bind (fun fault h => ⟨e, List.mem_cons_self, addEntry_refuses m e fault h⟩)
      fun m' _ => (foldlM_refuses entries m').mono ?_
    exact fun fault ⟨e', he', h⟩ => ⟨e', List.mem_cons_of_mem e he', h⟩

theorem FieldsOf.nil : FieldsOf room [] [] := ⟨.nil, by simp, by simp⟩

theorem fieldsOf_fields {entries : List (Value × Value)} {m : FieldMap}
    (h : fields room entries = .ok m) : FieldsOf room entries m.entries := by
  rw [fields_eq] at h
  cases hm : entries.foldlM (addEntry room) [] with
  | error fault =>
    rw [hm] at h
    cases h
  | ok m' =>
    rw [hm] at h
    obtain rfl := Except.ok.inj h
    exact FieldsOf.nil.foldlM hm

theorem fields_refuses (entries : List (Value × Value)) :
    RefusesFor (fun err => ∃ fault, err = .noText fault ∧ ∃ e ∈ entries, Textless room e fault)
      (fields room entries) := by
  intro err h
  rw [fields_eq] at h
  cases hm : entries.foldlM (addEntry room) [] with
  | error fault =>
    rw [hm] at h
    obtain rfl := Except.error.inj h
    exact ⟨fault, rfl, foldlM_refuses entries [] fault hm⟩
  | ok m' =>
    rw [hm] at h
    cases h

/-! ## Forms -/

/-- The entries of the mappings that a file has: of the only one, or of all rows. -/
def entriesOf : Value → List (Value × Value)
  | .mapping entries => entries
  | .list items => items.flatMap fun
    | .mapping entries => entries
    | _ => []
  | _ => []

/-- What is handed on of a text in a form: numbers that are too long, lists, mappings and nodes that
the interpreter has no room for, scalars without a value, and values without a text. -/
inductive Stray (room : Interpreter) : Format → List Char → Error → Prop
  | longInteger {cs digits : List Char} (run : digits <:+: cs) (hd : digits.all Json.isDigit)
      (long : Decimal.maxIntegerDigits < digits.length) :
      Stray room .json cs (.number (.longInteger digits.length))
  | tooDeep {cs : List Char} {inList : Bool} {depth : Nat} {c : Char} {rest : List Char}
      (opening : c = '[' ∨ c = '\x7b') (begun : c :: rest <:+ cs)
      (around : depth + Json.brackets (c :: rest) ≤ Json.brackets cs)
      (full : room.json depth rest = false) : Stray room .json cs (.tooDeep inList)
  | endless {cs : List Char} {v : Value} {e : Value × Value} (h : Json.parse room.json cs = .ok v)
      (he : e ∈ entriesOf v) (full : ¬room.rendering.Takes 0 e.2) :
      Stray room .json cs (.noText .endless)
  | noRoom {cs : List Char} {rows : List (List (Value × Value))} {row : List (Value × Value)}
      {e : Value × Value} (h : Csv.table? cs = some rows) (hrow : row ∈ rows) (he : e ∈ row)
      (full : ¬room.rendering.Takes 0 e.2) : Stray room .csv cs (.noText .endless)
  | noCharacter {cs : List Char} (h : .broken .noCharacter ∈ Yaml.Token.ofText cs) :
      Stray room .yaml cs .noCharacter
  | version {cs : List Char} {digits : Nat}
      (h : .broken (.longInteger digits) ∈ Yaml.Token.ofText cs) :
      Stray room .yaml cs (.number (.longInteger digits))
  | nodesTooDeep {cs : List Char} {depth : Nat} {rest : List Yaml.Token}
      (begun : rest <:+ Yaml.Token.ofText cs)
      (around : depth + rest.length ≤ (Yaml.Token.ofText cs).length)
      (full : room.yaml.collections depth rest = false) : Stray room .yaml cs .nodesTooDeep
  | unmade {cs : List Char} {graph : Yaml.Graph} {root : Nat} {e : Error}
      (h : Yaml.Graph.ofTokens room.yaml (Yaml.Token.ofText cs) = .ok (some (graph, root)))
      (hp : graph.parts room.yaml root = .error (.node e)) (hu : Yaml.Unmade room.yaml graph e) :
      Stray room .yaml cs e
  | noText {cs : List Char} {v : Value} {e : Value × Value} {fault : Value.TextFault}
      (h : Yaml.load room.yaml cs = .ok v) (he : e ∈ entriesOf v) (ht : Textless room e fault) :
      Stray room .yaml cs (.noText fault)

/-- The data of a file is at fault, or its text has something that is handed on. -/
def Faulty (room : Interpreter) (path : Path) (f : Format) (cs : List Char) (e : Error) : Prop :=
  (∃ fault, e = .fields path.string fault) ∨ Stray room f cs e

theorem parse_refuses (path : Path) (cs : List Char) : ∀ f : Format,
    RefusesFor (Faulty room path f cs) (parse room path cs f)
  | .json => by
    rw [parse]
    cases h : Json.parse room.json cs with
    | ok v => exact refusesFor_ok
    | error fault =>
      have hb := Json.parse_refuses fault h
      cases hb with
      | malformed => exact refusesFor_error (.inl ⟨_, rfl⟩)
      | longInteger run hd long => exact refusesFor_error (.inr (.longInteger run hd long))
      | tooDeep opening begun around full =>
        exact refusesFor_error (.inr (.tooDeep opening begun (by omega) full))
  | .yaml => by
    rw [parse, Yaml.load]
    cases h : Yaml.Graph.ofTokens room.yaml (Yaml.Token.ofText cs) with
    | error fault =>
      cases Yaml.ofTokens_refuses room.yaml _ fault h with
      | malformed => exact refusesFor_error (.inl ⟨_, rfl⟩)
      | @broken f hf =>
        cases f with
        | malformed => exact refusesFor_error (.inl ⟨_, rfl⟩)
        | noCharacter => exact refusesFor_error (.inr (.noCharacter hf))
        | longInteger digits => exact refusesFor_error (.inr (.version hf))
      | tooDeep begun around full =>
        exact refusesFor_error (.inr (.nodesTooDeep begun around full))
    | ok found =>
      cases found with
      | none => exact refusesFor_ok
      | some found =>
        obtain ⟨graph, root⟩ := found
        dsimp only
        cases hp : graph.parts room.yaml root with
        | ok parts => exact refusesFor_ok
        | error p =>
          rcases Yaml.parts_refuses room.yaml graph root p hp with rfl | ⟨e, rfl, hu⟩
          · exact refusesFor_error (.inl ⟨_, rfl⟩)
          · exact refusesFor_error (.inr (.unmade h hp hu))
  | .csv => by
    rw [parse]
    split
    · exact refusesFor_ok
    · exact refusesFor_error (.inl ⟨_, rfl⟩)

theorem plain_text (shows : Value → Bool) (ps : Points) :
    (Value.text ps).plain shows = .ok ps := by rw [Value.plain]

theorem mem_entriesOf_list {items : List Value} {e : Value × Value} :
    e ∈ entriesOf (.list items) ↔ ∃ entries, .mapping entries ∈ items ∧ e ∈ entries := by
  rw [entriesOf, List.mem_flatMap]
  constructor
  · rintro ⟨v, hv, he⟩
    split at he
    · exact ⟨_, hv, he⟩
    · cases he
  · rintro ⟨entries, hv, he⟩
    exact ⟨_, hv, he⟩

/-- The entries of JSON values have texts as their keys. -/
theorem made_of_mem_entriesOf {n : Nat} {v : Value} {e : Value × Value} (h : Json.Made n v)
    (he : e ∈ entriesOf v) : (∃ ps, e.1 = .text ps) ∧ ∃ n, Json.Made n e.2 := by
  have hmapping : ∀ {n : Nat} {entries : List (Value × Value)}, Json.Made n (.mapping entries) →
      e ∈ entries → (∃ ps, e.1 = .text ps) ∧ ∃ n, Json.Made n e.2 := by
    intro n entries h he
    cases h with
    | mapping names hv => exact ⟨names e he, _, hv e he⟩
  cases v with
  | mapping entries => exact hmapping h he
  | list items =>
    obtain ⟨entries, hv, he⟩ := mem_entriesOf_list.1 he
    cases h with
    | list hitems => exact hmapping (hitems _ hv) he
  | _ => cases he

/-- The entries of a table are texts, or null where a row is too short. -/
theorem texts_of_table? {rows : List (List (Value × Value))} (h : Csv.table? cs = some rows)
    {row : List (Value × Value)} (hrow : row ∈ rows) :
    ∀ e ∈ row, (∃ ps, e.1 = .text ps) ∧ (e.2 = .null ∨ ∃ ps, e.2 = .text ps) := by
  have hentries : ∀ names row : List (List Char), ∀ e ∈ Csv.entries names row,
      (∃ ps, e.1 = .text ps) ∧ (e.2 = .null ∨ ∃ ps, e.2 = .text ps) := by
    intro names row
    have hfold : ∀ (l : List (List Char × Value)) (acc : List (Value × Value)),
        (∀ x ∈ l, x.2 = .null ∨ ∃ ps, x.2 = .text ps) →
        (∀ e ∈ acc, (∃ ps, e.1 = .text ps) ∧ (e.2 = .null ∨ ∃ ps, e.2 = .text ps)) →
        ∀ e ∈ l.foldl
            (fun acc (x : List Char × Value) => Value.insertEntry (.text (points x.1)) x.2 acc) acc,
          (∃ ps, e.1 = .text ps) ∧ (e.2 = .null ∨ ∃ ps, e.2 = .text ps) := by
      intro l
      induction l with
      | nil => exact fun _ _ hacc => hacc
      | cons x l ih =>
        intro acc hl hacc
        exact ih _ (fun y hy => hl y (List.mem_cons_of_mem x hy)) (Json.forall_insertEntry
          (p := fun k => ∃ ps, k = .text ps) (q := fun v : Value => v = .null ∨ ∃ ps, v = .text ps)
          ⟨points x.1, rfl⟩ (hl x List.mem_cons_self) hacc)
    refine hfold _ [] (fun x hx => ?_) (by simp)
    rcases List.mem_append.1 (List.of_mem_zip hx).2 with hv | hv
    · obtain ⟨cs, -, hc⟩ := List.mem_map.1 hv
      exact .inr ⟨points cs, hc.symm⟩
    · exact .inl (List.eq_of_mem_replicate hv)
  rw [Csv.table?] at h
  split at h
  · obtain rfl := Option.some.inj h
    cases hrow
  · split at h
    · cases h
    · obtain rfl := Option.some.inj h
      obtain ⟨r, -, rfl⟩ := List.mem_map.1 hrow
      exact hentries _ r

/-- A value without a text is one of those that are handed on. -/
theorem stray_of_textless {path : Path} {v : Value} {e : Value × Value} {fault : Value.TextFault}
    (he : e ∈ entriesOf v) (ht : Textless room e fault) : ∀ {f : Format},
      parse room path cs f = .ok v → Stray room f cs (.noText fault)
  | .json, h => by
    rw [parse] at h
    split at h
    · next w hw =>
      obtain rfl := Except.ok.inj h
      obtain ⟨⟨name, hname⟩, n, hv⟩ := made_of_mem_entriesOf (Json.parse_made hw) he
      obtain ⟨-, hk | hv'⟩ := ht
      · rw [hname, plain_text] at hk
        cases hk
      · obtain ⟨rfl, hfull⟩ := hv.renderAt 0 _ hv'
        exact .endless hw he hfull
    all_goals cases h
  | .yaml, h => by
    rw [parse] at h
    split at h
    · next w hw =>
      obtain rfl := Except.ok.inj h
      exact .noText hw he ht
    all_goals cases h
  | .csv, h => by
    rw [parse] at h
    split at h
    · next rows hrows =>
      obtain rfl := Except.ok.inj h
      obtain ⟨entries, hrow, he⟩ := mem_entriesOf_list.1 he
      obtain ⟨row, hmem, hrow⟩ := List.mem_map.1 hrow
      obtain rfl := Value.mapping.inj hrow
      obtain ⟨⟨name, hname⟩, hv⟩ := texts_of_table? hrows hmem e he
      obtain ⟨-, hk | hv'⟩ := ht
      · rw [hname, plain_text] at hk
        cases hk
      · have hmade : Json.Made 0 e.2 := by
          rcases hv with hv | ⟨text, hv⟩
          · exact hv ▸ .null
          · exact hv ▸ .text
        obtain ⟨rfl, hfull⟩ := hmade.renderAt 0 _ hv'
        exact .noRoom hrows hmem he hfull
    · cases h

/-! ## Files -/

/-- A file has a text that is to be read in a form. -/
structure Holds (files : Tree) (path : Path) (given : Option String) (f : Format)
    (cs : List Char) : Prop where
  format : format path given = .ok f
  found : files.exists? path = .ok true
  text : ∃ bytes, files.read path = .ok bytes ∧ Text.utf8? (Text.dropMark bytes) = some cs

/-- What a path and its file fail for: what is said about them, or what is handed on because the
path cannot even be asked for or the text of the file has something in it. -/
inductive Failing (room : Interpreter) (files : Tree) (path : Path) (given : Option String) :
    Error → Prop
  | fields (fault : FieldFault) : Failing room files path given (.fields path.string fault)
  | path {fault : Files.Fault} (h : files.exists? path = .error fault) :
      Failing room files path given (.file fault)
  | stray {f : Format} {cs : List Char} {e : Error} (holds : Holds files path given f cs)
      (h : Stray room f cs e) : Failing room files path given e

theorem format_refuses : RefusesFor (Failing room files path given) (format path given) := by
  unfold format
  split
  · split
    · exact refusesFor_ok
    · exact refusesFor_error (.fields _)
  · split
    · exact refusesFor_ok
    · exact refusesFor_error (.fields _)

theorem read_refuses {f : Format} (hf : format path given = .ok f) :
    RefusesFor (Failing room files path given) (read room files path f) := by
  unfold read
  split
  · next h => exact refusesFor_error (.path h)
  · exact refusesFor_error (.fields _)
  · next hfound =>
    split
    · exact refusesFor_error (.fields _)
    · next bytes hbytes =>
      split
      · next cs hcs =>
        intro e he
        rcases parse_refuses path cs f e he with ⟨fault, rfl⟩ | hs
        · exact .fields fault
        · exact .stray ⟨hf, hfound, bytes, hbytes, hcs⟩ hs
      · exact refusesFor_error (.fields _)

theorem fields_refuses_read {f : Format} (hf : format path given = .ok f) {v : Value}
    (hv : read room files path f = .ok v) {entries : List (Value × Value)}
    (hsub : ∀ e ∈ entries, e ∈ entriesOf v) :
    RefusesFor (Failing room files path given) (fields room entries) := by
  intro err herr
  obtain ⟨fault, rfl, e, he, ht⟩ := fields_refuses entries err herr
  unfold read at hv
  split at hv
  · cases hv
  · cases hv
  · next hfound =>
    split at hv
    · cases hv
    · next bytes hbytes =>
      split at hv
      · next cs hcs =>
        exact .stray ⟨hf, hfound, bytes, hbytes, hcs⟩ (stray_of_textless (hsub e he) ht hv)
      · cases hv

/-- The fields of rows are those of the mappings of a list. -/
abbrev RowsOf (room : Interpreter) (items : List Value) (rows : List FieldMap) : Prop :=
  List.Forall₂ (fun v m => ∃ entries, v = .mapping entries ∧ FieldsOf room entries m.entries)
    items rows

theorem rowsOf_rowsFrom : ∀ {items : List Value} {n : Nat} {rows : List FieldMap},
    rowsFrom room path n items = .ok rows → RowsOf room items rows
  | [], _, rows, h => by
    obtain rfl := Except.ok.inj h
    exact .nil
  | v :: items, n, rows, h => by
    cases v with
    | mapping entries =>
      rw [rowsFrom] at h
      obtain ⟨m, hm, h⟩ := exists_of_bind h
      obtain ⟨rest, hr, h⟩ := exists_of_bind h
      obtain rfl := Except.ok.inj h
      exact .cons ⟨entries, rfl, fieldsOf_fields hm⟩ (rowsOf_rowsFrom hr)
    | _ => cases h

theorem rowsFrom_refuses {causes : Error → Prop}
    (hrow : ∀ n, causes (.fields path.string (.rowNotMapping n))) : ∀ {items : List Value} (n : Nat),
      (∀ entries, .mapping entries ∈ items → RefusesFor causes (fields room entries)) →
        RefusesFor causes (rowsFrom room path n items)
  | [], _, _ => refusesFor_ok
  | v :: items, n, h => by
    cases v with
    | mapping entries =>
      rw [rowsFrom]
      refine (h entries List.mem_cons_self).bind fun _ _ => ?_
      exact (rowsFrom_refuses hrow (n + 1) fun entries' he =>
        h entries' (List.mem_cons_of_mem _ he)).bind fun _ _ => refusesFor_ok
    | _ => exact refusesFor_error (hrow n)

theorem load_refuses :
    RefusesFor (Failing room files path given) (load room files path given) := by
  refine RefusesFor.bind format_refuses fun f hf => ?_
  split
  · exact refusesFor_error (.fields _)
  refine RefusesFor.bind (read_refuses hf) fun v hv => ?_
  split
  · exact refusesFor_ok
  · exact fields_refuses_read hf hv fun e he => he
  · exact refusesFor_error (.fields _)

theorem loadRows_refuses :
    RefusesFor (Failing room files path given) (loadRows room files path given) := by
  refine RefusesFor.bind format_refuses fun f hf => RefusesFor.bind (read_refuses hf) fun v hv => ?_
  split
  · exact refusesFor_ok
  · next items =>
    exact rowsFrom_refuses (fun n => .fields _) 1 fun entries hmem =>
      fields_refuses_read hf hv fun e he => mem_entriesOf_list.2 ⟨entries, hmem, he⟩
  · exact refusesFor_error (.fields _)

/-- A folder with a file that has a day in a thirteenth month. -/
def wrongDay : Tree :=
  { Tree.empty with
    items := [([Text.toUtf8 "f.yaml".toList], .file (Text.toUtf8 "a: 2024-13-01\n".toList))] }

end MailMerge.FieldFile
