/-!
# Code points

Text that comes from a data file or from a caller can hold surrogates: halves of characters beyond
the first plane, without the other half. They are symbols of such a text like its characters, and
tell texts apart, but neither a document nor most file systems take them.
-/

namespace MailMerge

/-- A symbol of a text: a character, or a surrogate by its number among the surrogates. -/
inductive CodePoint where
  | char (c : Char)
  | surrogate (n : Fin 0x800)
deriving DecidableEq

/-- A text of code points. -/
abbrev Points := List CodePoint

instance : Coe Char CodePoint := ⟨.char⟩

/-- The characters of a text as code points. -/
def points (cs : List Char) : Points := cs.map .char

namespace CodePoint

def toNat : CodePoint → Nat
  | char c => c.toNat
  | surrogate n => 0xd800 + n

/-- The code point with a number. -/
def ofNat (n : Nat) : CodePoint :=
  if h : 0xd800 ≤ n ∧ n < 0xe000 then surrogate ⟨n - 0xd800, by omega⟩ else char (Char.ofNat n)

/-- The character that a document is given for a code point: for a surrogate one that no document
can hold either. -/
def toChar : CodePoint → Char
  | char c => c
  | surrogate _ => '\uffff'

end CodePoint

/-- The characters that a document is given for a text. -/
def Points.chars (ps : Points) : List Char := ps.map CodePoint.toChar

/-- A text as messages have it, with a replacement for each surrogate. -/
def Points.string (ps : Points) : String :=
  String.ofList (ps.map fun
    | .char c => c
    | .surrogate _ => '\ufffd')

@[simp] theorem points_nil : points [] = [] := rfl

@[simp] theorem points_cons (c : Char) (cs : List Char) : points (c :: cs) = .char c :: points cs :=
  rfl

@[simp] theorem points_append (cs ds : List Char) : points (cs ++ ds) = points cs ++ points ds :=
  List.map_append

theorem points_injective {cs ds : List Char} (h : points cs = points ds) : cs = ds :=
  (List.map_inj_right fun _ _ => CodePoint.char.inj).1 h

@[simp] theorem char_mem_points {c : Char} {cs : List Char} : .char c ∈ points cs ↔ c ∈ cs := by
  simp [points]

namespace Points

@[simp] theorem chars_cons (p : CodePoint) (ps : Points) : chars (p :: ps) = p.toChar :: chars ps := rfl

end Points

/-- What texts are made of: characters, or code points. -/
class Symbol (α : Type) where
  ofChar : Char → α
  char? : α → Option Char
  char?_ofChar (c : Char) : char? (ofChar c) = some c

attribute [simp] Symbol.char?_ofChar

instance : Symbol Char := ⟨id, some, fun _ => rfl⟩

instance : Symbol CodePoint where
  ofChar := .char
  char?
    | .char c => some c
    | .surrogate _ => none
  char?_ofChar _ := rfl

@[simp] theorem Symbol.char?_char (c : Char) : Symbol.char? c = some c := rfl

@[simp] theorem Symbol.ofChar_char (c : Char) : (Symbol.ofChar c : Char) = c := rfl

end MailMerge
