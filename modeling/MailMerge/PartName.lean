import MailMerge.Files

/-!
# Names of parts

The parts of a document that a merge looks at, and how one part names another: by a path that starts
at the folder of the main part, or at the top of the package.
-/

namespace MailMerge.PartName

def main : String := "word/document.xml"

def relationships : String := "word/_rels/document.xml.rels"

def footnotes : String := "word/footnotes.xml"

def endnotes : String := "word/endnotes.xml"

/-- Goes on from a place by the part of a path: a double dot leads back, but not out of the top. -/
def step (place : List (List Char)) (part : List Char) : List (List Char) :=
  if part = [] ∨ part = ['.'] then place
  else if part = ['.', '.'] ∧ place ≠ [] ∧ place.getLast? ≠ some ['.', '.'] then place.dropLast
  else place ++ [part]

/-- The folder of the main part. -/
def folder : List Char := "word".toList

/-- The name of the part that a target means. -/
def resolve (target : List Char) : List Char :=
  if target.head? = some '/' then target.dropWhile (· = '/')
  else match (Files.splitChar '/' target).foldl step [folder] with
    | [] => ['.']
    | place => List.intercalate ['/'] place

end MailMerge.PartName
