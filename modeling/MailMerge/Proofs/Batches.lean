import MailMerge.Batch
import MailMerge.Proofs.Failures
import MailMerge.Proofs.FileNames
import MailMerge.Proofs.Folders
import MailMerge.Proofs.Saved

/-!
# Batches

The rows of a batch do not touch each other. What becomes of a row is up to the row, to the template
and to where its document is written (`outcome`, `after`). The documents have names of their own in
one folder, and nothing else in the folder changes (`Course`). A batch that records failures is
stopped by a row for five causes only, all of them the row's own.
-/

namespace MailMerge

open Files (Path Tree)

/-! ## Jobs -/

section Meets

variable {ε σ α : Type} {x : EStateM ε σ α} {s : σ} {good : α → σ → Prop} {bad : ε → σ → Prop}

@[simp]
theorem meets_tryCatch {handle : ε → EStateM ε σ α} : Meets (tryCatch x handle) s good bad ↔
    Meets x s good fun e s' => Meets (handle e) s' good bad := by
  change Meets (EStateM.tryCatch x handle) s good bad ↔ _
  unfold Meets EStateM.tryCatch
  cases x s <;> rfl

@[simp]
theorem meets_onDocument {path? : Option Path} {x : Tree → Work α} {desk : Desk}
    {good : α → Desk → Prop} {bad : Error → Desk → Prop} :
    Meets (Job.onDocument path? x) desk good bad ↔
      Meets (x desk.files) (Document.unread path?)
        (fun a d => good a { desk with log := desk.log ++ d.log })
        fun e d => bad e { desk with log := desk.log ++ d.log } := by
  cases h : x desk.files (Document.unread path?) with
  | ok a d =>
    have hx : Job.onDocument path? x desk = .ok a { desk with log := desk.log ++ d.log } := by
      simp only [Job.onDocument, show (x desk.files).run (Document.unread path?) = .ok a d from h]
    simp only [Meets, h, hx]
  | error e d =>
    have hx : Job.onDocument path? x desk = .error e { desk with log := desk.log ++ d.log } := by
      simp only [Job.onDocument, show (x desk.files).run (Document.unread path?) = .error e d from h]
    simp only [Meets, h, hx]

@[simp]
theorem meets_jobReport {level : Log.Level} {message : String} {desk : Desk}
    {good : Unit → Desk → Prop} {bad : Error → Desk → Prop} :
    Meets (Job.report level message) desk good bad ↔
      good () { desk with log := desk.log ++ [⟨level, .batch, message⟩] } := Iff.rfl

end Meets

namespace Batch

/-! ## A row alone -/

/-- Merges the template with a row. -/
def merging (template : Text.Bytes) (fields : FieldMap) : Work (Stats × Text.Bytes) := do
  Document.openBytes template
  let stats ← Merge.run fields
  return (stats, ← Document.saveBytes)

/-- What the template merged with a row is, as an archive. -/
def merged (template : Text.Bytes) (fields : FieldMap) : Except Error (Stats × Text.Bytes) :=
  match merging template fields (Document.unread none) with
  | .ok r _ => .ok r
  | .error e _ => .error e

/-- What becomes of a row: it is merged and written to a path. -/
def outcome (template : Text.Bytes) (files : Tree) (fields : FieldMap) (path : Path) :
    Except Error (Path × Stats) :=
  match merged template fields with
  | .error e => .error e
  | .ok (stats, bytes) => match (files.write path bytes).2 with
    | .error f => .error (Document.notSaved f)
    | .ok () => .ok (path, stats)

/-- The files when a row has been made. -/
def after (template : Text.Bytes) (files : Tree) (fields : FieldMap) (path : Path) : Tree :=
  match merged template fields with
  | .error _ => files
  | .ok (_, bytes) => (files.write path bytes).1

/-- What a row has left of its document: all of it, or the first bytes if writing it has broken
off. -/
inductive Remains (template : Text.Bytes) (fields : FieldMap) (path : Path)
    (outcome : Except Error (Path × Stats)) : Text.Bytes → Prop
  | whole {stats : Stats} {out : Text.Bytes} (hm : merged template fields = .ok (stats, out))
      (ho : outcome = .ok (path, stats)) : Remains template fields path outcome out
  | broken {stats : Stats} {out : Text.Bytes} {size : Nat} {e : Files.SystemError}
      (hm : merged template fields = .ok (stats, out))
      (ho : outcome = .error (.document (.notSaved ⟨.system e, none⟩) [])) :
      Remains template fields path outcome (out.take size)

theorem merged_spec (template : Text.Bytes) (fields : FieldMap) :
    Meets (merging template fields) (Document.unread none)
      (fun r _ => merged template fields = .ok r) fun e _ => merged template fields = .error e := by
  unfold Meets merged
  cases merging template fields (Document.unread none) <;> rfl

/-- The document of a row is made of its merge, and put where the path leads to. -/
theorem makeDocument_spec {template : Text.Bytes} {fields : FieldMap} {path : Path} {desk : Desk}
    (hp : path.Proper) : Meets (makeDocument template fields path) desk
      (fun stats desk' => outcome template desk.files fields path = .ok (path, stats) ∧
        desk'.files = after template desk.files fields path)
      fun err desk' => outcome template desk.files fields path = .error err ∧
        desk'.files = after template desk.files fields path := by
  have failed : ∀ {err : Error}, merged template fields = .error err →
      outcome template desk.files fields path = .error err ∧
        desk.files = after template desk.files fields path := fun h => by
    rw [outcome, after, h]
    exact ⟨rfl, rfl⟩
  have h := merged_spec template fields
  simp only [merging, meets_bind, meets_pure] at h
  simp only [makeDocument, Job.saving, meets_bind, meets_onDocument, meets_modify]
  refine h.mono (fun _ d h => ?_) fun _ _ h => failed h
  refine h.mono (fun stats d h => ?_) fun _ _ h => failed h
  simp only [Document.save, meets_bind, meets_get, Option.some_or]
  refine h.mono (fun bytes d h => ?_) fun _ _ h => failed h
  rw [hp.ofPoints_text]
  rcases hw : desk.files.write path bytes with ⟨files, f | _⟩
  · simp only [outcome, after, h, hw]
    exact ⟨rfl, rfl⟩
  · simp only [outcome, after, h, hw]
    exact ⟨rfl, rfl⟩

variable {plan : Plan} {template : Text.Bytes} {place : Files.Place} {files t t' : Tree}
  {used : List Points} {fields : FieldMap}

/-- A row leaves the files as they are, or puts what there is of its document where its path leads. -/
theorem after_cases (template : Text.Bytes) (t : Tree) (fields : FieldMap) (path : Path) :
    (after template t fields path = t ∧ ∃ err, outcome template t fields path = .error err) ∨
    ∃ q bytes, t.locate path = .ok q ∧ t.item? q ≠ some .folder ∧
      after template t fields path = t.put q (.file bytes) ∧
      Remains template fields path (outcome template t fields path) bytes := by
  cases hm : merged template fields with
  | error err =>
    rw [after, outcome, hm]
    exact .inl ⟨rfl, err, rfl⟩
  | ok x =>
    obtain ⟨stats, out⟩ := x
    rcases Tree.write_cases t path out with
      ⟨cause, hw, -⟩ | ⟨q, hl, hi, hw | ⟨size, e, hw⟩⟩
    · simp only [after, outcome, hm, hw]
      exact .inl ⟨trivial, _, rfl⟩
    · simp only [after, outcome, hm, hw]
      exact .inr ⟨q, out, hl, hi, rfl, .whole hm rfl⟩
    · simp only [after, outcome, hm, hw]
      exact .inr ⟨q, _, hl, hi, rfl, .broken hm rfl⟩

theorem keeps_after {path : Path} : Tree.Keeps t (after template t fields path) := by
  rcases after_cases template t fields path with ⟨h, -⟩ | ⟨q, bytes, -, hi, h, -⟩
  · rw [h]
    exact .refl t
  · rw [h]
    exact Tree.keeps_put hi

theorem item?_after {path : Path} {q : Files.Place} (hq : t.locate path ≠ .ok q) :
    (after template t fields path).item? q = t.item? q := by
  rcases after_cases template t fields path with ⟨h, -⟩ | ⟨q', bytes, hl, hi, h, -⟩
  · rw [h]
  · have hne : q' ≠ [] := by
      rintro rfl
      exact hi (Tree.item?_nil t)
    rw [h, Tree.item?_put hne, if_neg]
    rintro rfl
    exact hq hl

/-! ## Names -/

/-- A stem that no slash and no null character is in. -/
def Plain (stem : Points) : Prop := .char '/' ∉ stem ∧ .char '\x00' ∉ stem

theorem fileName_injective {stem stem' : Points} (h : fileName stem = fileName stem') :
    stem = stem' := List.append_cancel_right h

theorem notMem_fileName {stem : Points} {c : Char} (h : .char c ∉ stem)
    (hc : c ∉ ".docx".toList) : .char c ∉ fileName stem := by
  rw [fileName, List.mem_append, char_mem_points]
  exact fun hm => hm.elim h hc

theorem isPart_fileName {stem : Points} (h : Plain stem) : Path.IsPart (fileName stem) where
  nonempty := by simp [fileName]
  notHere he := by simpa [fileName] using congrArg List.length he
  noSlash := notMem_fileName h.1 (by decide)

theorem nameBytes?_fileName_ne (stem : Points) : Files.nameBytes? (fileName stem) ≠ some Tree.up := by
  intro h
  rw [fileName, Files.nameBytes?_append, Files.nameBytes?_points] at h
  obtain ⟨front, -, h⟩ := Option.bind_eq_some_iff.1 h
  have hlen := congrArg List.length (Option.some.inj h)
  rw [List.length_append] at hlen
  have hdocx : (".docx".toList.flatMap String.utf8EncodeChar).length = 5 := by decide
  have hup : Tree.up.length = 2 := rfl
  omega

theorem Plain.withNumber {stem : Points} (h : Plain stem) (n : Nat) :
    Plain (stem ++ points ('-' :: Decimal.natText n)) := by
  have hdigit : ∀ c ∈ '-' :: Decimal.natText n, c ≠ '/' ∧ c ≠ '\x00' := by
    intro c hc
    rcases List.mem_cons.1 hc with rfl | hc
    · decide
    · have hd := Decimal.isDigit_of_mem_natText hc
      constructor
      · rintro rfl
        exact absurd hd (by decide)
      · rintro rfl
        exact absurd hd (by decide)
  refine ⟨fun hm => ?_, fun hm => ?_⟩
  · exact (List.mem_append.1 hm).elim h.1 fun hm => (hdigit _ (char_mem_points.1 hm)).1 rfl
  · exact (List.mem_append.1 hm).elim h.2 fun hm => (hdigit _ (char_mem_points.1 hm)).2 rfl

theorem Plain.numbered {stem : Points} (h : Plain stem) (n : Nat) :
    Plain (FileName.numbered stem n) := by
  rw [FileName.numbered]
  split_ifs
  · exact h
  · exact h.withNumber n

theorem plain_safe (ps : Points) : Plain (FileName.safe ps) :=
  ⟨fun h => absurd (FileName.isUnsafe_of_mem_safe h) (by decide),
    fun h => absurd (FileName.isUnsafe_of_mem_safe h) (by decide)⟩

/-- A row has no name only if the value that it asks for has no text. -/
theorem wantedStem_cases (plan : Plan) (row : Nat) (fields : FieldMap) :
    (∃ err, wantedStem plan row fields = .error err ∧ Merge.WithoutText fields err) ∨
      ∃ asked, wantedStem plan row fields = .ok (if FileName.safe asked = [] then
        plan.template.stem ++ points ('-' :: Decimal.natText row) else FileName.safe asked) := by
  unfold wantedStem
  cases hv : fields.value? plan.nameField with
  | none => exact .inr ⟨[], rfl⟩
  | some v =>
    dsimp only
    by_cases ht : v.isTruthy
    · rw [if_pos ht]
      cases hf : fields.text v with
      | error fault => exact .inl ⟨_, rfl, _, v, fault, hv, hf, rfl⟩
      | ok text => exact .inr ⟨text, rfl⟩
    · rw [if_neg ht]
      exact .inr ⟨[], rfl⟩

theorem plain_wantedStem {row : Nat} {stem : Points} (ht : Plain plan.template.stem)
    (h : wantedStem plan row fields = .ok stem) : Plain stem := by
  rcases wantedStem_cases plan row fields with ⟨err, he, -⟩ | ⟨asked, he⟩
  · cases h.symm.trans he
  · obtain rfl := Except.ok.inj (h.symm.trans he)
    split_ifs
    · exact ht.withNumber row
    · exact plain_safe asked

/-- The stem of a template that has been read is plain. -/
theorem plain_stem {ps : Points} {bytes : Text.Bytes} (h : files.read (.ofPoints ps) = .ok bytes) :
    Plain (Path.ofPoints ps).stem := by
  obtain ⟨place, hl⟩ : ∃ place, files.locate (.ofPoints ps) = .ok place := by
    unfold Tree.read Tree.lookUp at h
    cases hl : files.locate (.ofPoints ps) with
    | error cause => simp [hl, bind, Except.bind] at h
    | ok place => exact ⟨place, rfl⟩
  have hname : Plain (Path.ofPoints ps).name := by
    unfold Path.name
    cases hlast : (Path.ofPoints ps).parts.getLast? with
    | none => simp [Plain]
    | some part =>
      have hm := List.mem_of_getLast? hlast
      exact ⟨((Path.proper_ofPoints ps).parts part hm).noSlash, Tree.null_notMem_of_locate hl part hm⟩
  have hsub : (Path.ofPoints ps).stem ⊆ (Path.ofPoints ps).name := by
    unfold Path.stem Path.splitName
    dsimp only
    split_ifs
    · exact List.Subset.refl _
    · exact List.take_subset _ _
  exact ⟨fun hm => hname.1 (hsub hm), fun hm => hname.2 (hsub hm)⟩

/-- Where the document with a stem goes in a folder, whatever else is there. -/
theorem locate_fileName {folder : Path} (h : t.LeadsTo folder place) (stem : Points) :
    t.locate (folder.child (fileName stem)) = Tree.childPlace folder place (fileName stem) :=
  Tree.locate_child h (nameBytes?_fileName_ne stem)

/-- What a row fails for that is not recorded: its merge fails, or its name has no bytes. -/
theorem outcome_fails {folder : Path} {stem : Points} {err : Error} (hf : t.LeadsTo folder place)
    (hs : Plain stem)
    (h : outcome template t fields (folder.child (fileName stem)) = .error err)
    (herr : err.isRowFailure = false) : merged template fields = .error err ∨
      Files.nameBytes? (fileName stem) = none ∧
        err = .file ⟨.notEncodable, folder.child (fileName stem)⟩ := by
  unfold outcome at h
  cases hm : merged template fields with
  | error e =>
    rw [hm] at h
    exact .inl (congrArg _ (Except.error.inj h))
  | ok x =>
    obtain ⟨stats, out⟩ := x
    rw [hm] at h
    dsimp only at h
    rcases Tree.write_cases t (folder.child (fileName stem)) out with
      ⟨cause, hw, hcause⟩ | ⟨q, -, -, hw | ⟨size, e, hw⟩⟩ <;> rw [hw] at h
    · obtain rfl := Except.error.inj h
      -- What the system says is recorded, and so is a name that is too long.
      rcases hcause with hl | rfl | ⟨e, rfl⟩
      · rw [locate_fileName hf] at hl
        rcases Tree.childPlace_eq_error hf (notMem_fileName hs.2 (by decide)) hl with
          rfl | ⟨rfl, hb⟩
        · cases herr
        · exact .inr ⟨hb, rfl⟩
      · cases herr
      · cases herr
    · cases h
    · obtain rfl := Except.error.inj h
      cases herr

/-! ## The course of a batch -/

/-- A row, the stem that it has been given, and what has become of it. -/
structure Made where
  fields : FieldMap
  stem : Points
  result : RowResult

/-- The path of the document of a row. -/
def Made.path (m : Made) (folder : Path) : Path := folder.child (fileName m.stem)

/-- What a row has been given and what has become of it with the files of its turn, where it is the
row with a number. -/
structure RowMade (plan : Plan) (template : Text.Bytes) (t : Tree) (row : Nat) (m : Made) :
    Prop where
  number : m.result.row = row
  stem : ∃ wanted n, wantedStem plan row m.fields = .ok wanted ∧ m.stem = FileName.numbered wanted n
  outcome : m.result.outcome = outcome template t m.fields (m.path plan.folder)
  recorded : ∀ e, m.result.outcome = .error e → e.isRowFailure = true ∧ plan.stopOnError = false

/-- The error that a row stops the batch with. -/
def Stops (plan : Plan) (template : Text.Bytes) (t : Tree) (row : Nat) (fields : FieldMap)
    (err : Error) : Prop :=
  wantedStem plan row fields = .error err ∨ ∃ wanted n, wantedStem plan row fields = .ok wanted ∧
    outcome template t fields (plan.folder.child (fileName (FileName.numbered wanted n))) =
      .error err ∧ (err.isRowFailure = true → plan.stopOnError = true)

/-- A row is made as its outcome says. -/
theorem makeRow_spec {path : Path} {row : Nat} {desk : Desk} (hp : path.Proper) :
    Meets (makeRow plan template row fields path) desk
      (fun r desk' => r.row = row ∧ r.outcome = outcome template desk.files fields path ∧
        (∀ e, r.outcome = .error e → e.isRowFailure = true ∧ plan.stopOnError = false) ∧
        desk'.files = after template desk.files fields path)
      fun err _ => outcome template desk.files fields path = .error err ∧
        (err.isRowFailure = true → plan.stopOnError = true) := by
  rw [makeRow, meets_tryCatch, meets_bind]
  refine (makeDocument_spec hp).mono ?_ ?_
  · rintro stats desk' ⟨hout, hfiles⟩
    rw [meets_bind, meets_jobReport, meets_pure]
    exact ⟨rfl, hout.symm, fun e he => (by cases he), hfiles⟩
  · rintro err desk' ⟨hout, hfiles⟩
    split_ifs with hs hf hf
    · rw [Bool.and_eq_true, Bool.not_eq_true'] at hs
      rw [meets_bind, meets_jobReport]
      exact ⟨rfl, hout.symm, fun e he => Except.error.inj he ▸ hs, hfiles⟩
    · rw [Bool.and_eq_true] at hs
      exact absurd hs.1 hf
    · rw [meets_bind, meets_jobReport]
      exact ⟨hout, fun hf => by simpa [hf] using hs⟩
    · exact ⟨hout, fun h => absurd h hf⟩

/-- How a batch goes: each row is made with the files that the row before has left, under a name that
has not been used. -/
inductive Course (plan : Plan) (template : Text.Bytes) :
    Nat → List Points → List Made → Tree → Tree → Prop
  | nil {row : Nat} {used : List Points} {t : Tree} : Course plan template row used [] t t
  | cons {row : Nat} {used : List Points} {m : Made} {made : List Made} {t t' : Tree}
      (hrow : RowMade plan template t row m) (hplain : Plain m.stem)
      (hfree : Text.lower m.stem ∉ used)
      (hrest : Course plan template (row + 1) (Text.lower m.stem :: used) made
        (after template t m.fields (m.path plan.folder)) t') :
      Course plan template row used (m :: made) t t'

theorem makeRows_spec (hproper : plan.folder.Proper) (hstem : Plain plan.template.stem) :
    ∀ (rows : List FieldMap) {used : List Points} {row : Nat} {desk : Desk},
      Meets (makeRows plan template used row rows) desk
        (fun results desk' => ∃ made, made.map (·.fields) = rows ∧ made.map (·.result) = results ∧
          Course plan template row used made desk.files desk'.files)
        fun err _ => ∃ i fields t, rows[i]? = some fields ∧ Tree.Keeps desk.files t ∧
          Stops plan template t (row + i) fields err
  | [], used, row, desk => ⟨[], rfl, rfl, .nil⟩
  | fields :: rest, used, row, desk => by
    rw [makeRows]
    split
    · next wanted hw =>
      simp only [pure_bind, meets_bind, meets_pure]
      obtain ⟨n, hn⟩ := FileName.exists_free used wanted
      have hplain : Plain (FileName.free used wanted) :=
        hn ▸ (plain_wantedStem hstem hw).numbered n
      refine Meets.mono (makeRow_spec (hproper.child (isPart_fileName hplain))) ?_
        fun err _ h => ⟨0, fields, desk.files, rfl, .refl _, .inr ⟨wanted, n, hw, hn ▸ h⟩⟩
      rintro r desk₁ ⟨hnum, hout, hrec, hfiles⟩
      refine (makeRows_spec hproper hstem rest).mono ?_ ?_
      · rintro results desk' ⟨made, rfl, rfl, hc⟩
        exact ⟨⟨fields, _, r⟩ :: made, rfl, rfl, .cons ⟨hnum, ⟨wanted, n, hw, hn⟩, hout, hrec⟩ hplain
          (FileName.lower_free_notMem used wanted) (hfiles ▸ hc)⟩
      · rintro err _ ⟨i, fields', t, hi, hk, hs⟩
        refine ⟨i + 1, fields', t, hi, Tree.Keeps.trans ?_ hk, by rwa [Nat.add_right_comm] at hs⟩
        exact hfiles ▸ keeps_after
    · next err hw => exact ⟨0, fields, desk.files, rfl, .refl _, .inl hw⟩

namespace Course

variable {row : Nat} {made : List Made} {m : Made}

theorem keeps (h : Course plan template row used made t t') : Tree.Keeps t t' := by
  induction h with
  | nil => exact .refl _
  | cons _ _ _ _ ih => exact keeps_after.trans ih

theorem stems (h : Course plan template row used made t t') :
    (∀ m ∈ made, Plain m.stem ∧ Text.lower m.stem ∉ used) ∧
      made.Pairwise fun m m' => Text.lower m.stem ≠ Text.lower m'.stem := by
  induction h with
  | nil => simp
  | cons _ hplain hfree _ ih =>
    refine ⟨List.forall_mem_cons.2 ⟨⟨hplain, hfree⟩, fun m' hm' => ?_⟩,
      List.pairwise_cons.2 ⟨fun m' hm' he => ?_, ih.2⟩⟩
    · exact ⟨(ih.1 m' hm').1, fun hu => (ih.1 m' hm').2 (List.mem_cons_of_mem _ hu)⟩
    · exact (ih.1 m' hm').2 (he ▸ List.mem_cons_self)

/-- Where nothing of a batch goes, nothing changes. -/
theorem kept {q : Files.Place} (h : Course plan template row used made t t')
    (hf : t.LeadsTo plan.folder place)
    (hq : ∀ m ∈ made, Tree.childPlace plan.folder place (fileName m.stem) ≠ .ok q) :
    t'.item? q = t.item? q := by
  induction h with
  | nil => rfl
  | @cons _ _ m made t t' hrow hplain hfree hrest ih =>
    obtain ⟨hm, hmade⟩ := List.forall_mem_cons.1 hq
    rw [ih (hf.keeps keeps_after) hmade, item?_after]
    exact (locate_fileName hf m.stem).trans_ne hm

/-- A row is made with the files as they were before the first row, but for the documents of the rows
in front of it. -/
theorem turn {i : Nat} (h : Course plan template row used made t t')
    (hf : t.LeadsTo plan.folder place) (hi : made[i]? = some m) :
    ∃ t₁, RowMade plan template t₁ (row + i) m ∧ Tree.Keeps t t₁ ∧ ∀ q,
      (∀ m' ∈ made.take i, Tree.childPlace plan.folder place (fileName m'.stem) ≠ .ok q) →
        t₁.item? q = t.item? q := by
  induction h generalizing i with
  | nil => cases hi
  | @cons row _ m₀ made t t' hrow hplain hfree hrest ih =>
    cases i with
    | zero => exact ⟨t, Option.some.inj hi ▸ hrow, .refl t, fun _ _ => rfl⟩
    | succ i =>
      obtain ⟨t₁, hm, hk, hsame⟩ := ih (hf.keeps keeps_after) hi
      refine ⟨t₁, by rwa [Nat.add_right_comm] at hm, keeps_after.trans hk, fun q hq => ?_⟩
      obtain ⟨hq₀, hq⟩ := List.forall_mem_cons.1 hq
      rw [hsame q hq, item?_after]
      exact (locate_fileName hf m₀.stem).trans_ne hq₀

/-- What is found in a place has been there before, or is what a row has left of its document. -/
theorem found (h : Course plan template row used made t t') (hf : t.LeadsTo plan.folder place)
    (q : Files.Place) : t'.item? q = t.item? q ∨ ∃ m ∈ made, ∃ bytes,
      Tree.childPlace plan.folder place (fileName m.stem) = .ok q ∧
        t'.item? q = some (.file bytes) ∧
          Remains template m.fields (m.path plan.folder) m.result.outcome bytes := by
  induction h with
  | nil => exact .inl rfl
  | @cons row _ m made t t' hrow hplain hfree hrest ih =>
    rcases ih (hf.keeps keeps_after) with hsame | ⟨m', hm', hrest⟩
    swap
    · exact .inr ⟨m', List.mem_cons_of_mem m hm', hrest⟩
    have hlocate := locate_fileName hf m.stem
    rcases after_cases template t m.fields (m.path plan.folder) with
      ⟨he, -⟩ | ⟨q', bytes, hl, hi, he, hr⟩
    · exact .inl (hsame.trans (congrArg (·.item? q) he))
    · have hne : q' ≠ [] := by
        rintro rfl
        exact hi (Tree.item?_nil t)
      rw [he, Tree.item?_put hne] at hsame
      split_ifs at hsame with hq
      · refine .inr ⟨m, List.mem_cons_self, bytes, ?_, hsame, hrow.outcome ▸ hr⟩
        exact hlocate.symm.trans (hq ▸ hl)
      · exact .inl hsame

/-- A row that has succeeded has written its document, which is there as long as no later row writes
to the same place. -/
theorem written {i : Nat} {path : Path} {stats : Stats}
    (h : Course plan template row used made t t') (hf : t.LeadsTo plan.folder place)
    (hi : made[i]? = some m) (ho : m.result.outcome = .ok (path, stats)) :
    path = m.path plan.folder ∧ ∃ q out, merged template m.fields = .ok (stats, out) ∧
      Tree.childPlace plan.folder place (fileName m.stem) = .ok q ∧
        ((∀ j m', i < j → made[j]? = some m' →
          Tree.childPlace plan.folder place (fileName m'.stem) ≠ .ok q) →
            t'.item? q = some (.file out)) := by
  induction h generalizing i with
  | nil => cases hi
  | @cons row _ m₀ made t t' hrow hplain hfree hrest ih =>
    cases i with
    | succ i =>
      obtain ⟨hpath, q, out, hm, hq, hout⟩ := ih (hf.keeps keeps_after) hi
      exact ⟨hpath, q, out, hm, hq, fun hlater => hout fun j m' hj hm' =>
        hlater (j + 1) m' (Nat.succ_lt_succ hj) hm'⟩
    | zero =>
      obtain rfl := Option.some.inj hi
      rcases after_cases template t m₀.fields (m₀.path plan.folder) with
        ⟨-, err, he⟩ | ⟨q, bytes, hl, hi, he, hr⟩
      · cases (ho.symm.trans hrow.outcome).trans he
      rw [← hrow.outcome, ho] at hr
      cases hr with
      | broken _ ho => cases ho
      | whole hm ho' =>
        obtain ⟨hpath, rfl⟩ := Prod.mk.inj (Except.ok.inj ho')
        refine ⟨hpath, q, bytes, hm, (locate_fileName hf m₀.stem).symm.trans hl, fun hlater => ?_⟩
        have hne : q ≠ [] := by
          rintro rfl
          exact hi (Tree.item?_nil t)
        rw [hrest.kept (hf.keeps keeps_after), he, Tree.item?_put hne, if_pos rfl]
        intro m' hm'
        obtain ⟨j, hj⟩ := List.mem_iff_getElem?.1 hm'
        exact hlater (j + 1) m' (Nat.succ_pos j) hj

end Course

/-! ## The whole batch -/

/-- The batch fails before the first row: the template or the folder cannot be used. -/
def Unstarted (plan : Plan) (files : Tree) (err : Error) : Prop :=
  (∃ f, files.read plan.template = .error f) ∨
    (∃ template, files.read plan.template = .ok template ∧
      ∃ d, Document.openBytes template (Document.unread none) = .error err d) ∨
    ∃ f, files.makeFolders plan.folder = .error f

/-- The template and the folder can be used. -/
structure Started (plan : Plan) (before : Tree) (template : Text.Bytes) (files : Tree) : Prop where
  read : before.read plan.template = .ok template
  opens : ∃ d, Document.openBytes template (Document.unread none) = .ok () d
  folder : before.makeFolders plan.folder = .ok files

theorem run_spec {rows : List FieldMap} {desk : Desk} (hstem : ∀ template,
    desk.files.read plan.template = .ok template → Plain plan.template.stem)
    (hproper : plan.folder.Proper) : Meets (run plan rows) desk
      (fun results desk' => ∃ template files place made,
        Started plan desk.files template files ∧ files.LeadsTo plan.folder place ∧
          made.map (·.fields) = rows ∧ made.map (·.result) = results ∧
            Course plan template 1 [] made files desk'.files)
      fun err _ => Unstarted plan desk.files err ∨ ∃ template files place,
        Started plan desk.files template files ∧ files.LeadsTo plan.folder place ∧
          ∃ i fields t, rows[i]? = some fields ∧ Tree.Keeps files t ∧
            Stops plan template t (i + 1) fields err := by
  rw [run, readTemplate, meets_bind, meets_bind, meets_get]
  split
  · next template hread =>
    rw [meets_pure, meets_bind, meets_onDocument]
    refine (meets_self _ _).mono ?_ fun err d h => .inl (.inr (.inl ⟨template, hread, d, h⟩))
    rintro ⟨⟩ d hopen
    rw [meets_bind, meets_get]
    split
    · next f hf => exact .inl (.inr (.inr ⟨f, hf⟩))
    · next files hfiles =>
      obtain ⟨-, place, hplace⟩ := Tree.makeFolders_spec hfiles
      have hst : Started plan desk.files template files := ⟨hread, ⟨d, hopen⟩, hfiles⟩
      rw [meets_bind, meets_modify, meets_bind]
      refine (makeRows_spec hproper (hstem template hread) rows).mono ?_ ?_
      · rintro results desk' ⟨made, hrows, hres, hc⟩
        exact ⟨template, files, place, made, hst, hplace, hrows, hres, hc⟩
      · rintro err _ ⟨i, fields, t, hi, hk, hs⟩
        exact .inr ⟨template, files, place, hst, hplace, i, fields, t, hi, hk,
          by rwa [Nat.add_comm] at hs⟩
  · next f hread => exact .inl (.inl ⟨f, hread⟩)

/-- Whether a member of a template has a name that is too long to be written. -/
def HasLongName (template : Text.Bytes) : Prop :=
  ∃ p, Package.ofArchive .memory template = .ok p ∧
    ∃ name ∈ p.names, Archive.maxNameSize < (Archive.nameBytes name).length

/-- A document that has been opened can be saved, unless its package has a name that is too long. -/
theorem saveBytes_fails {d : Document} {p : Package} (hp : Package.ofArchive .memory template = .ok p)
    (hk : Document.Kept p d) :
    FailsFor (fun err => err = .longName ∧ HasLongName template) Document.saveBytes d := by
  obtain ⟨q, hq, hsane, hnames, -⟩ := hk.package
  have hindexed : ∀ part ∈ d.parts, part.name ∈ q.names := hnames ▸ hk.indexed.members
  cases hw : Archive.write (Document.writeParts d.forest d.parts q).members with
  | ok bytes => exact (meets_of_ok (Document.saveBytes_of_write hq hw)).2 trivial
  | error fault =>
    obtain ⟨m, hm, hfault⟩ := Archive.exists_of_write_error hw
    have hmem : m.name ∈ p.names :=
      hnames ▸ Document.names_writeParts hindexed ▸ List.mem_map_of_mem hm
    have hne := (Document.sane_writeParts (f := d.forest) hindexed hsane).named m hm
    rw [Archive.Member.nameFault?, if_neg hne] at hfault
    split at hfault
    · next hlong =>
      obtain rfl := Option.some.inj hfault
      have hlong : Archive.maxNameSize < (Archive.nameBytes m.name).length := hlong
      refine (Document.saveBytes_of_fault hq hw).mono (fun _ _ h => h.elim) ?_
      rintro err _ rfl
      exact ⟨rfl, p, hp, m.name, hmem, hlong⟩
    · cases hfault

/-- What makes a merge with a row fail in a way that a batch does not record: a value without a text,
a replacement that is refused, or a name of the template that is too long. -/
inductive Halts (template : Text.Bytes) (fields : FieldMap) : Error → Prop
  | withoutText {err : Error} (h : Merge.WithoutText fields err) : Halts template fields err
  | refused {d d₁ : Document} {found : List Story} {err : Error}
      (ho : Document.openBytes template (Document.unread none) = .ok () d)
      (hf : Document.stories d = .ok found d₁)
      (h : Merge.Refused d₁.forest (Merge.planned fields d₁.forest found) err) :
      Halts template fields err
  | longName (h : HasLongName template) : Halts template fields .longName

/-- What the merge of a template that can be opened fails for. -/
theorem merged_fails {err : Error}
    (ho : ∃ d, Document.openBytes template (Document.unread none) = .ok () d)
    (h : merged template fields = .error err) :
    err.isRowFailure = true ∨ Halts template fields err := by
  obtain ⟨d, ho⟩ := ho
  have hd : d.Sound := Document.sound_openArchive.of_ok ho
  obtain ⟨p, hp, -, -, hk⟩ := Document.kept_of_openArchive ho
  have hkept : Meets (Merge.run fields) d (fun _ d' => Document.Kept p d') fun _ _ => True :=
    (Document.kept_run hk).mono (fun _ _ h => h) fun _ _ _ => trivial
  have hfails : Meets (merging template fields) (Document.unread none) (fun _ _ => True)
      fun err _ => err.isRowFailure = true ∨ Halts template fields err := by
    rw [merging, meets_bind, meets_of_ok ho, meets_bind]
    refine ((Merge.run_fails hd).and hkept).mono (fun stats d' h => ?_) ?_
    · rw [meets_bind]
      refine (saveBytes_fails hp h.2).mono (fun _ _ _ => trivial) ?_
      rintro err _ ⟨rfl, hlong⟩
      exact .inr (.longName hlong)
    · rintro err _ ⟨h | h | ⟨found, d₁, hf, h⟩, -⟩
      · exact .inl h
      · exact .inr (.withoutText h)
      · exact .inr (.refused ho hf h)
  unfold merged at h
  split at h
  · cases h
  · next e d' hm => exact Except.error.inj h ▸ hfails.of_error hm

end Batch

end MailMerge
