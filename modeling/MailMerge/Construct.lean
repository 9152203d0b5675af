/-!
# Tag constructs

A tag construct is a field name in angle brackets inside a second pair of brackets, which may hold
literal text on either side of it: `<Dear <Name>, >`. A question mark after the name makes the tag
optional. Brackets cannot be written in the literal texts.

A construct is recognised twice: `split?` reads one off the front of a text, and `decompose?` takes
a whole text apart at its brackets. `scan` finds the constructs of a text from left to right; each
search goes on behind the construct found before.
-/

namespace MailMerge

/-- The parts of a tag construct: the literal texts before and after the tag, the field name, and
whether it is marked as optional. -/
structure Construct where
  lead : List Char
  name : List Char
  optional : Bool
  tail : List Char
deriving DecidableEq

namespace Construct

/-- The field name as written, with its mark. -/
def spec (c : Construct) : List Char := if c.optional then c.name ++ ['?'] else c.name

/-- The construct as written. -/
def written (c : Construct) : List Char :=
  '<' :: c.lead ++ '<' :: c.spec ++ '>' :: c.tail ++ ['>']

def isBracket (c : Char) : Bool := c = '<' || c = '>'

/-- A character that may stand in a literal text. -/
def isLiteral (c : Char) : Bool := !isBracket c

/-- A character that may stand in a field name. -/
def isNameChar (c : Char) : Bool := isLiteral c && c ≠ '?'

/-- The texts between the brackets of a text, whichever way these point. -/
def pieces : List Char → List (List Char)
  | [] => [[]]
  | c :: cs =>
    if isBracket c then [] :: pieces cs
    else match pieces cs with
      | [] => [[c]]
      | piece :: rest => (c :: piece) :: rest

/-- The construct with the given texts around and between its inner brackets. -/
def ofPieces? : List (List Char) → Option Construct
  | [lead, spec, tail] =>
    let optional := spec.getLast? = some '?'
    let name := if optional then spec.dropLast else spec
    if name = [] then none else some ⟨lead, name, optional, tail⟩
  | _ => none

/-- Takes a text apart that begins with an opening and ends with a closing bracket and has two
brackets in between. -/
def decompose? : List Char → Option Construct
  | '<' :: rest => if rest.getLast? = some '>' then ofPieces? (pieces rest.dropLast) else none
  | _ => none

/-- What follows the mark of an optional tag, if there is one. -/
def skipMark : List Char → List Char
  | '?' :: rest => rest
  | rest => rest

/-- What follows the construct that a text begins with, if it begins with one. -/
def after? : List Char → Option (List Char)
  | '<' :: rest =>
    match rest.dropWhile isLiteral with
    | '<' :: inner =>
      if inner.takeWhile isNameChar = [] then none
      else match skipMark (inner.dropWhile isNameChar) with
        | '>' :: outer =>
          match outer.dropWhile isLiteral with
          | '>' :: rest => some rest
          | _ => none
        | _ => none
    | _ => none
  | _ => none

theorem skipMark_suffix (cs : List Char) : skipMark cs <:+ cs := by
  unfold skipMark
  split
  · exact List.suffix_cons _ _
  · exact List.suffix_rfl

theorem after?_suffix {cs rest : List Char} (h : after? cs = some rest) :
    rest <:+ cs ∧ rest.length < cs.length := by
  unfold after? at h
  split at h <;> try contradiction
  split at h <;> try contradiction
  next _ r _ inner h₁ =>
  split at h <;> try contradiction
  split at h <;> try contradiction
  next _ outer h₂ =>
  split at h <;> try contradiction
  next _ last h₃ =>
  obtain rfl : last = rest := by simpa using h
  have s₁ : ('<' :: inner) <:+ r := h₁ ▸ List.dropWhile_suffix _
  have s₂ : ('>' :: outer) <:+ inner :=
    h₂ ▸ (skipMark_suffix _).trans (List.dropWhile_suffix _)
  have s₃ : ('>' :: last) <:+ outer := h₃ ▸ List.dropWhile_suffix _
  have t : last <:+ r :=
    ((((List.suffix_cons _ _).trans s₃).trans (List.suffix_cons _ _)).trans s₂).trans
      ((List.suffix_cons _ _).trans s₁)
  exact ⟨t.trans (List.suffix_cons _ _), Nat.lt_succ_of_le t.length_le⟩

/-- The construct that a text begins with, as written, and what follows it. -/
def split? (cs : List Char) : Option (List Char × List Char) :=
  (after? cs).map fun rest => (cs.take (cs.length - rest.length), rest)

theorem append_of_split? {cs text rest : List Char} (h : split? cs = some (text, rest)) :
    text ++ rest = cs := by
  simp only [split?, Option.map_eq_some_iff, Prod.mk.injEq] at h
  obtain ⟨r, hr, rfl, rfl⟩ := h
  obtain ⟨⟨front, rfl⟩, -⟩ := after?_suffix hr
  simp

theorem length_lt_of_split? {cs text rest : List Char} (h : split? cs = some (text, rest)) :
    rest.length < cs.length := by
  simp only [split?, Option.map_eq_some_iff, Prod.mk.injEq] at h
  obtain ⟨r, hr, -, rfl⟩ := h
  exact (after?_suffix hr).2

end Construct

/-- A construct found in a text: where its opening bracket is, its text and its parts. -/
structure Found where
  start : Nat
  text : List Char
  parts : Construct
deriving DecidableEq

namespace Found

/-- Where the closing bracket is. -/
def last (f : Found) : Nat := f.start + f.text.length - 1

end Found

namespace Construct

/-- The constructs in the rest of a text, the first character of which is at `start`. -/
def scanFrom (start : Nat) (cs : List Char) : List Found :=
  match h : split? cs with
  | some (text, rest) =>
    have := length_lt_of_split? h
    match decompose? text with
    | some parts => ⟨start, text, parts⟩ :: scanFrom (start + text.length) rest
    | none => scanFrom (start + text.length) rest
  | none =>
    match cs with
    | [] => []
    | _ :: rest => scanFrom (start + 1) rest
termination_by cs.length

/-- The constructs of a text, from left to right. -/
def scan (cs : List Char) : List Found := scanFrom 0 cs

end Construct

end MailMerge
