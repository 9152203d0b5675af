import MailMerge.Text.CodePoint

/-!
# Tokens

The text of a document is a row of tokens. It ends with `streamEnd`, or where the text breaks off
with `broken`, which has the cause.
-/

namespace MailMerge.Yaml

/-- Why a text cannot be read: its form is wrong, it has the number of no code point, or that of a
version has too many digits. -/
inductive Fault where
  | malformed
  | noCharacter
  | longInteger (digits : Nat)
deriving DecidableEq

/-- The tag of a node as written: a handle, if it has one, and the rest. -/
structure TagText where
  handle : Option (List Char)
  suffix : List Char
deriving DecidableEq

inductive Token where
  | streamEnd
  | broken (f : Fault)
  | version (major : Nat)
  | tagHandle (handle lead : List Char)
  | directive
  | documentStart
  | documentEnd
  | blockSequenceStart
  | blockMappingStart
  | blockEnd
  | flowSequenceStart
  | flowSequenceEnd
  | flowMappingStart
  | flowMappingEnd
  | blockEntry
  | flowEntry
  | key
  | value
  | repeated (name : List Char)
  | anchor (name : List Char)
  | tag (t : TagText)
  | scalar (text : Points) (plain : Bool)
deriving DecidableEq

/-- What there is room for in a reader: for which collections, by the number of those around them and
by the tokens behind their beginning; and by the number of steps, and the node that one leads to, for
which mappings that are merged and for which texts behind value keys. -/
structure Room where
  collections : Nat → List Token → Bool
  merges : Nat → Nat → Bool
  values : Nat → Nat → Bool

end MailMerge.Yaml
