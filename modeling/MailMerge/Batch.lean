import MailMerge.FileName
import MailMerge.Merge

/-!
# Batches

A batch makes one document for each row of fields, all from one template. Every row begins with the
template as it was read. A row that fails is recorded, and the others go on, unless the batch is to
stop.
-/

namespace MailMerge

open Files (Path)

/-- What is left when documents have been made: the files, and what was reported. -/
structure Desk where
  files : Files.Tree
  log : Log

/-- Work with files. Work that fails leaves what it has done up to there. -/
abbrev Job := EStateM Error Desk

namespace Job

/-- Works on a document that nothing has been read of. -/
def onDocument {α : Type} (path? : Option Path) (x : Files.Tree → Work α) : Job α := fun desk =>
  match (x desk.files).run (Document.unread path?) with
  | .ok a d => .ok a { desk with log := desk.log ++ d.log }
  | .error e d => .error e { desk with log := desk.log ++ d.log }

def report (level : Log.Level) (message : String) : Job Unit :=
  modify fun desk => { desk with log := desk.log ++ [⟨level, .batch, message⟩] }

def lift {α : Type} : Except Error α → Job α
  | .ok a => pure a
  | .error e => throw e

/-- Works on a document and writes it to a file. What has been written stays, also where writing has
failed. -/
def saving {α : Type} (path? : Option Path) (x : Files.Tree → Work (Files.Tree × Except Error α)) :
    Job α := do
  let (files, saved) ← onDocument path? x
  modify fun desk => { desk with files }
  lift saved

end Job

/-- What has become of a row. -/
structure RowResult where
  row : Nat
  outcome : Except Error (Path × Stats)

namespace RowResult

def succeeded (r : RowResult) : Bool := r.outcome.isOk

def message (r : RowResult) : String :=
  match r.outcome with
  | .ok (path, stats) => path.name.string ++ ": " ++ String.ofList stats.text
  | .error e => "Error: " ++ e.message

/-- A line on a row. -/
def line (succeeded : Bool) (row : Int) (message : String) : String :=
  (if succeeded then "✓" else "✗") ++ " row " ++ String.ofList (Decimal.intText row) ++ ": " ++
    message

def text (r : RowResult) : String := line r.succeeded r.row r.message

end RowResult

namespace Batch

/-- The field that has the name of a document. -/
def nameField : String := "Document Name"

/-- What a batch is to do: where the template and the folder for the documents are, which field has
their names, and whether to stop at the first row that fails. -/
structure Plan where
  template : Path
  folder : Path
  nameField : Points
  stopOnError : Bool

/-- The name that a row asks for; one with the number of the row, if it asks for none. -/
def wantedStem (plan : Plan) (row : Nat) (fields : FieldMap) : Except Error Points := do
  let asked ← match fields.value? plan.nameField with
    | some v => if v.isTruthy then (fields.text v).mapError .noText else .ok []
    | none => .ok []
  let stem := FileName.safe asked
  return if stem = [] then plan.template.stem ++ points ('-' :: Decimal.natText row) else stem

/-- The name of the file with a stem. -/
def fileName (stem : Points) : Points := stem ++ points ".docx".toList

/-- Makes the document of a row. -/
def makeDocument (template : Text.Bytes) (fields : FieldMap) (path : Path) : Job Stats :=
  Job.saving none fun files => do
    Document.openBytes template
    let stats ← Merge.run fields
    let (files, saved) ← Document.save files (some path.text)
    return (files, saved.map fun _ => stats)

/-- Makes the document of a row, and says what has become of it. -/
def makeRow (plan : Plan) (template : Text.Bytes) (row : Nat) (fields : FieldMap) (path : Path) :
    Job RowResult :=
  tryCatch (do
    let stats ← makeDocument template fields path
    Job.report .info ("Row " ++ toString row ++ ": wrote " ++ path.string ++ " (" ++
      String.ofList stats.text ++ ")")
    return ⟨row, .ok (path, stats)⟩) fun e => do
      if e.isRowFailure then
        Job.report .warning ("Row " ++ toString row ++ " failed: " ++ e.message)
      if e.isRowFailure && !plan.stopOnError then return ⟨row, .error e⟩ else throw e

/-- Makes the documents of rows, the first of which has number `row`. `used` has the names taken. -/
def makeRows (plan : Plan) (template : Text.Bytes) (used : List Points) (row : Nat) :
    List FieldMap → Job (List RowResult)
  | [] => return []
  | fields :: rest => do
    let wanted ← match wantedStem plan row fields with
      | .ok stem => pure stem
      | .error e => throw e
    let stem := FileName.free used wanted
    let path := plan.folder.child (fileName stem)
    let result ← makeRow plan template row fields path
    return result :: (← makeRows plan template (Text.lower stem :: used) (row + 1) rest)

/-- The bytes of the template. -/
def readTemplate (path : Path) : Job Text.Bytes := do
  match (← get).files.read path with
  | .ok bytes => return bytes
  | .error f =>
    throw (if f.cause.isOfText then .file f else .document (.templateUnread path.string f) [])

/-- Makes all documents. -/
def run (plan : Plan) (rows : List FieldMap) : Job (List RowResult) := do
  let template ← readTemplate plan.template
  Job.onDocument none fun _ => Document.openBytes template
  match (← get).files.makeFolders plan.folder with
  | .error f => throw (.file f)
  | .ok files => modify fun desk => { desk with files }
  let results ← makeRows plan template [] 1 rows
  Job.report .info ("Batch done: " ++ toString (results.countP (·.succeeded)) ++ " of " ++
    toString results.length ++ " documents merged")
  return results

end Batch

end MailMerge
