import MailMerge.Batch
import MailMerge.FieldFile
import MailMerge.Text.Terminal

/-!
# Commands

The command line: `merge` makes one document, `batch` one for each row of a table, and `tags` lists
the tags of a template. A command line that is not understood is refused before anything is done.
-/

namespace MailMerge

open Files (Path)

def version : String := "0.1.0"

inductive Command where
  | showVersion
  | merge (template fields : Path) (output : Option Path)
  | batch (plan : Batch.Plan) (table : Path)
  | tags (template : Path)

namespace Command

/-! ## Command lines -/

/-- An option of a command by its long and its short name, and whether it takes a value. -/
structure OptionName where
  long : String
  short : Option Char
  takesValue : Bool

/-- What the words of a command line say: options with their values, the last one first, and
arguments. -/
structure Words where
  options : List (String × String)
  arguments : List String

namespace Words

def empty : Words := ⟨[], []⟩

def option (w : Words) (name value : String) : Words :=
  { w with options := (name, value) :: w.options }

def argument (w : Words) (a : String) : Words := { w with arguments := w.arguments ++ [a] }

def value? (w : Words) (name : String) : Option String := w.options.lookup name

end Words

/-- Short options that stand together; the first one with a value takes the rest of the word for it,
or the next word. Gives what is left of the words. -/
def readShort (known : List OptionName) (words : Words) (rest : List String) :
    List Char → Option (Words × List String)
  | [] => some (words, rest)
  | c :: cs => do
    let o ← known.find? fun o => o.short = some c
    if o.takesValue then
      if cs ≠ [] then return (words.option o.long (String.ofList cs), rest)
      else match rest with
        | value :: rest => return (words.option o.long value, rest)
        | [] => none
    else readShort known (words.option o.long "") rest cs

/-- An option with its long name, and a value behind an equals sign or in the next word. -/
def readLong (known : List OptionName) (words : Words) (rest : List String) (name : List Char) :
    Option (Words × List String) := do
  let given := name.takeWhile (· ≠ '=')
  let o ← known.find? fun o => o.long.toList = given
  let hasValue := given.length < name.length
  let value := String.ofList (name.drop (given.length + 1))
  if o.takesValue then
    if hasValue then return (words.option o.long value, rest)
    else match rest with
      | value :: rest => return (words.option o.long value, rest)
      | [] => none
  else if hasValue then none
  else return (words.option o.long "", rest)

/-- The words of a command line, `fuel` of them at most. `mixed` allows options behind arguments;
otherwise what follows the first argument is left, whatever it is. -/
def readWords (known : List OptionName) (mixed : Bool) (words : Words) :
    Nat → List String → Option Words
  | 0, _ => none
  | _, [] => some words
  | fuel + 1, word :: rest =>
    match word.toList with
    | ['-', '-'] => some { words with arguments := words.arguments ++ rest }
    | '-' :: '-' :: name => do
      let (words, rest) ← readLong known words rest name
      readWords known mixed words fuel rest
    | '-' :: c :: cs => do
      let (words, rest) ← readShort known words rest (c :: cs)
      readWords known mixed words fuel rest
    | _ =>
      if mixed then readWords known mixed (words.argument word) fuel rest
      else some { words with arguments := words.arguments ++ word :: rest }

/-- The words of a command line. Every step takes one at least. -/
def words? (known : List OptionName) (mixed : Bool) (line : List String) : Option Words :=
  readWords known mixed .empty (line.length + 1) line

def mainOptions : List OptionName := [⟨"version", none, false⟩, ⟨"verbose", some 'v', false⟩]

def mergeOptions : List OptionName := [⟨"output", some 'o', true⟩]

def batchOptions : List OptionName := [
  ⟨"output-dir", some 'd', true⟩, ⟨"name-field", none, true⟩, ⟨"stop-on-error", none, false⟩]

/-- The command that a name and what follows it mean. -/
def ofWords? (name : String) (line : List String) : Option Command :=
  match name with
  | "merge" =>
    match words? mergeOptions true line with
    | some ⟨options, [template, fields]⟩ =>
      some (.merge (.ofString template) (.ofString fields)
        ((options.lookup "output").map Path.ofString))
    | _ => none
  | "batch" =>
    match words? batchOptions true line with
    | some ⟨options, [template, table]⟩ =>
      let plan : Batch.Plan := {
        template := .ofString template
        folder := .ofString ((options.lookup "output-dir").getD ".")
        nameField := points ((options.lookup "name-field").getD Batch.nameField).toList
        stopOnError := (options.lookup "stop-on-error").isSome }
      some (.batch plan (.ofString table))
    | _ => none
  | "tags" =>
    match words? [] true line with
    | some ⟨_, [template]⟩ => some (.tags (.ofString template))
    | _ => none
  | _ => none

def names : List String := ["merge", "batch", "tags"]

/-- Whether the options in front of a line ask for the version. -/
def asksVersion (line : List String) : Bool :=
  (words? mainOptions false line).any fun words => (words.value? "version").isSome

/-- The command that a command line means, and whether all records are to be shown. Where no command
follows two hyphens, options may. -/
def ofLine? (line : List String) : Option (Command × Bool) := do
  let words ← words? mainOptions false line
  let verbose := (words.value? "verbose").isSome
  if (words.value? "version").isSome then return (.showVersion, verbose)
  else match words.arguments with
    | name :: rest =>
      if name ∈ names then return (← ofWords? name rest, verbose)
      else if asksVersion (name :: rest) then return (.showVersion, verbose)
      else none
    | [] => none

/-! ## Running -/

/-- The path of a merged document where none is given. -/
def mergedPath (template : Path) : Path :=
  template.withName (template.stem ++ points "-merged.docx".toList)

/-- The paths that a command names: only what is there can make a difference to it. -/
def paths : Command → List Path
  | .showVersion => []
  | .merge template fields output =>
    let path := output.getD (mergedPath template)
    [template, fields, path.parent, path]
  | .batch plan table => [plan.template, table, plan.folder]
  | .tags template => [template]

/-- What a command has to say, and whether it failed in part. -/
structure Answer where
  output : List String
  problems : List String

def run (room : Interpreter) : Command → Job Answer
  | .showVersion => return ⟨["docx-merge version " ++ version], []⟩
  | .merge template fields output => do
    let fields ← Job.lift (FieldFile.load room (← get).files fields none)
    let path := output.getD (mergedPath template)
    let stats ← Job.saving (some template) fun files => do
      Document.openFile files
      let stats ← Merge.run fields
      let (files, saved) ← Document.save files (some path.text)
      return (files, saved.map fun _ => stats)
    return ⟨[String.ofList stats.text ++ ", saved to " ++ path.string], []⟩
  | .batch plan table => do
    let rows ← Job.lift (FieldFile.loadRows room (← get).files table none)
    let results ← Batch.run plan rows
    let failed := results.filter fun r => !r.succeeded
    let count := results.length - failed.length
    return ⟨["Merged " ++ toString count ++ " documents (" ++ toString failed.length ++
        " failed) into " ++ plan.folder.string],
      failed.map fun r => "  Failed: row " ++ toString r.row ++ ": " ++ r.message⟩
  | .tags template => do
    let names ← Job.onDocument (some template) fun files => do
      Document.openFile files
      Merge.tagNames
    return ⟨names.map String.ofList, []⟩

/-- What a command line comes to: the exit code, the lines of output and of problems, the files, and
an error that the command does not report itself. -/
structure Outcome where
  exitCode : Nat
  output : List String
  problems : List String
  files : Files.Tree
  unreported : Option Error

/-- The records that are shown: all of them with their origin, or the messages of warnings. -/
def shownRecords (verbose : Bool) (log : Log) : List String :=
  if verbose then log.map Log.Record.text
  else (log.filter fun r => r.level = .warning).map (·.message)

/-- Runs a command line. The exit code is two for one that is not understood. -/
def runLine (room : Interpreter) (line : List String) (files : Files.Tree) : Outcome :=
  match ofLine? line with
  | none => ⟨2, [], [], files, none⟩
  | some (command, verbose) =>
    match (run room command).run ⟨files, []⟩ with
    | .ok answer desk =>
      let code := if answer.problems = [] then 0 else 1
      let problems := shownRecords verbose desk.log ++ answer.problems.map Text.withoutCommands
      ⟨code, answer.output.map Text.withoutCommands, problems, desk.files, none⟩
    | .error e desk =>
      let records := shownRecords verbose desk.log
      if e.isReported then
        ⟨1, [], records ++ [Text.withoutCommands ("Error: " ++ e.message)], desk.files, none⟩
      else ⟨1, [], records, desk.files, some e⟩

end Command

end MailMerge
