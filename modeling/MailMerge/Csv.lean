import MailMerge.Value

/-!
# Comma-separated values

A line is a row of fields with commas between them. A field that begins with a quote goes on to the
next quote, whatever stands in between; two quotes are one, and what follows the last one is part of
the field. The first row names the fields of the others.
-/

namespace MailMerge.Csv

/-- Where in a row a character stands. -/
inductive Position where
  | rowStart
  | fieldStart
  | plain
  | quoted
  | quoteSeen
deriving DecidableEq

/-- What has been read: the rows, and of the last row the fields and the characters of the last of
these, each the last one first. -/
structure Progress where
  rows : List (List (List Char))
  row : List (List Char)
  field : List Char

namespace Progress

def add (p : Progress) (c : Char) : Progress := { p with field := c :: p.field }

def endField (p : Progress) : Progress := { p with row := p.field.reverse :: p.row, field := [] }

def endRow (p : Progress) : Progress := { p with rows := p.row.reverse :: p.rows, row := [] }

end Progress

/-- Reads the rest of a text. -/
def read (p : Progress) (position : Position) : List Char → Progress
  | [] =>
    match position with
    | .rowStart => p
    | _ => p.endField.endRow
  | c :: rest =>
    if position = .quoted then
      if c = '"' then read p .quoteSeen rest else read (p.add c) .quoted rest
    else if position = .quoteSeen ∧ c = '"' then read (p.add c) .quoted rest
    else if c = '\n' ∨ c = '\r' then
      let p := if position = .rowStart then p.endRow else p.endField.endRow
      if c = '\r' ∧ rest.head? = some '\n' then endLine p rest else read p .rowStart rest
    else if c = ',' then read p.endField .fieldStart rest
    else if c = '"' ∧ (position = .rowStart ∨ position = .fieldStart) then read p .quoted rest
    else read (p.add c) .plain rest
where
  /-- Reads on behind the second character of the end of a line. -/
  endLine (p : Progress) : List Char → Progress
    | [] => p
    | _ :: rest => read p .rowStart rest

/-- The rows of a text. -/
def rows (cs : List Char) : List (List (List Char)) := (read ⟨[], [], []⟩ .rowStart cs).rows.reverse

/-- The most characters that a field can have. -/
def maxFieldLength : Nat := 131072

/-- The values of a row by the names of the fields; none for names that the row is too short for.
The last value of a name counts. -/
def entries (names row : List (List Char)) : List (Value × Value) :=
  let values := (row.map fun cs => Value.text (points cs)) ++
    List.replicate (names.length - row.length) .null
  (names.zip values).foldl (fun acc (name, v) => Value.insertEntry (.text (points name)) v acc) []

/-- The rows of a table without its first row, which has the names; empty ones are left out. Nothing
if a field is too long. -/
def table? (cs : List Char) : Option (List (List (Value × Value))) :=
  match rows cs with
  | [] => some []
  | names :: rest =>
    if (names :: rest).any fun row => row.any fun field => maxFieldLength < field.length then none
    else some ((rest.filter (· ≠ [])).map (entries names))

end MailMerge.Csv
