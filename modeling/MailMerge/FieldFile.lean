import MailMerge.Csv
import MailMerge.Fields
import MailMerge.Interpreter
import MailMerge.Yaml.Value

/-!
# Files of field data

A data file holds the fields of one document, or rows of them for many. Its form follows from the
end of its name, or is given. All values are rendered as text here, so that a merge need not know
what they were.
-/

namespace MailMerge.FieldFile

open Files (Path Tree)

inductive Format where
  | json
  | yaml
  | csv
deriving DecidableEq

namespace Format

def ofName? (name : String) : Option Format :=
  if name = "json" then some json
  else if name = "yaml" then some yaml
  else if name = "csv" then some csv
  else none

/-- The form of files with a suffix, in small letters. -/
def ofSuffix? (suffix : String) : Option Format :=
  if suffix = ".json" then some json
  else if suffix = ".yaml" ∨ suffix = ".yml" then some yaml
  else if suffix = ".csv" then some csv
  else none

end Format

/-- Why the file at a path cannot be used. -/
def fail {α : Type} (path : Path) (fault : FieldFault) : Except Error α :=
  .error (.fields path.string fault)

/-- The form of a file: the given one, or the one its name says. -/
def format (path : Path) (given : Option String) : Except Error Format :=
  match given with
  | some name => match Format.ofName? name with
    | some f => .ok f
    | none => fail path (.unknownFormat name)
  | none => match Format.ofSuffix? (Text.lower path.suffix).string with
    | some f => .ok f
    | none => fail path (.unknownSuffix path.suffix.string)

/-- The value of a text in a form. The rows of a table are a list of mappings. -/
def parse (room : Interpreter) (path : Path) (cs : List Char) : Format → Except Error Value
  | .json =>
    match Json.parse room.json cs with
    | .ok v => .ok v
    | .error .malformed => fail path .notJson
    | .error (.longInteger digits) => .error (.number (.longInteger digits))
    | .error (.tooDeep inList) => .error (.tooDeep inList)
  | .yaml =>
    match Yaml.load room.yaml cs with
    | .ok v => .ok v
    | .error .malformed => fail path .notYaml
    | .error (.node e) => .error e
  | .csv =>
    match Csv.table? cs with
    | some rows => .ok (.list (rows.map .mapping))
    | none => fail path .notCsv

/-- The value that a file holds. -/
def read (room : Interpreter) (files : Tree) (path : Path) (f : Format) : Except Error Value :=
  match files.exists? path with
  | .error e => .error (.file e)
  | .ok false => fail path .fileNotFound
  | .ok true => match files.read path with
    | .error e => fail path (.unreadable e.cause)
    | .ok bytes => match Text.utf8? (Text.dropMark bytes) with
      | some cs => parse room path cs f
      | none => fail path .notUtf8

/-- Puts a field in the place of the one with its name, or behind all others. -/
def insert (name : Points) (v : Value) : List (Points × Value) → List (Points × Value)
  | [] => [(name, v)]
  | (name', v') :: rest =>
    if name' = name then (name, v) :: rest else (name', v') :: insert name v rest

/-- The fields of a mapping: the texts of its keys and values. The null key is left out. -/
def fields (room : Interpreter) (entries : List (Value × Value)) : Except Error FieldMap :=
  let add (acc : List (Points × Value)) :
      Value × Value → Except Value.TextFault (List (Points × Value))
    | (.null, _) => .ok acc
    | (k, v) => do
      let name ← k.plain room.shows
      return insert name (.text (← v.render room.rendering)) acc
  ((entries.foldlM add []).mapError .noText).map fun entries => ⟨entries, room.shows⟩

/-- The fields of one document. -/
def load (room : Interpreter) (files : Tree) (path : Path) (given : Option String) :
    Except Error FieldMap := do
  let f ← format path given
  if f = .csv then fail path .rowsOnly
  else match ← read room files path f with
    | .null => return ⟨[], room.shows⟩
    | .mapping entries => fields room entries
    | _ => fail path .notMapping

/-- The fields of rows, the first of which has number `n`. -/
def rowsFrom (room : Interpreter) (path : Path) (n : Nat) :
    List Value → Except Error (List FieldMap)
  | [] => .ok []
  | .mapping entries :: rest => do
    let row ← fields room entries
    return row :: (← rowsFrom room path (n + 1) rest)
  | _ :: _ => fail path (.rowNotMapping n)

/-- The fields of many documents. -/
def loadRows (room : Interpreter) (files : Tree) (path : Path) (given : Option String) :
    Except Error (List FieldMap) := do
  match ← read room files path (← format path given) with
  | .null => return []
  | .list items => rowsFrom room path 1 items
  | _ => fail path .notRows

end MailMerge.FieldFile
