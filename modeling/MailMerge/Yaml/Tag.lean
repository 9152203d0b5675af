import MailMerge.Files
import MailMerge.Yaml.Timestamp

/-!
# Tags

The tag of a node says what its value is. A plain scalar without a tag gets one by its text.
-/

namespace MailMerge.Yaml

inductive Tag where
  | null
  | bool
  | int
  | float
  | binary
  | timestamp
  | text
  | sequence
  | mapping
  | set
  | orderedMap
  | pairs
  | merge
  | value
  | unknown
deriving DecidableEq

namespace Tag

/-- What the names of the standard tags begin with. -/
def standard : List Char := "tag:yaml.org,2002:".toList

def names : List (String × Tag) := [
  ("null", null), ("bool", bool), ("int", int), ("float", float), ("binary", binary),
  ("timestamp", timestamp), ("str", text), ("seq", sequence), ("map", mapping), ("set", set),
  ("omap", orderedMap), ("pairs", pairs), ("merge", merge), ("value", value)]

/-- The tag with a full name. -/
def ofName (cs : List Char) : Tag :=
  if standard.isPrefixOf cs then
    (names.lookup (String.ofList (cs.drop standard.length))).getD unknown
  else unknown

/-- Whether a value of the tag has other values in it. -/
def isCollection (tag : Tag) : Bool := tag ∈ [sequence, mapping, set, orderedMap, pairs]

/-- Whether a text can have a value of the tag. -/
def hasValue (tag : Tag) : Bool := tag ∈ [null, bool, int, float, binary, timestamp, text]

/-! ## Plain scalars -/

/-- The words for truth values. -/
def truthWords : List String := [
  "yes", "Yes", "YES", "no", "No", "NO", "true", "True", "TRUE", "false", "False", "FALSE",
  "on", "On", "ON", "off", "Off", "OFF"]

def nullWords : List String := ["", "~", "null", "Null", "NULL"]

def infinityWords : List String := [".inf", ".Inf", ".INF"]

def nanWords : List String := [".nan", ".NaN", ".NAN"]

def isPart (c : Char) : Bool := c.isDigit || c = '_'

/-- What follows a sign, if there is one. -/
def unsigned : List Char → List Char
  | '-' :: rest => rest
  | '+' :: rest => rest
  | cs => cs

/-- Whether a text is an exponent, with its sign, or nothing. -/
def isExponent : List Char → Bool
  | [] => true
  | e :: sign :: digits =>
    (e = 'e' || e = 'E') && (sign = '-' || sign = '+') && digits ≠ [] && digits.all Char.isDigit
  | _ => false

/-- Whether a text is a number below sixty. -/
def isSixtieth : List Char → Bool
  | [d] => d.isDigit
  | [t, d] => '0' ≤ t && t ≤ '5' && d.isDigit
  | _ => false

/-- Whether a text is a row of numbers below sixty, each behind a colon. -/
def isSixtieths (cs : List Char) : Bool :=
  match Files.splitChar ':' cs with
  | [] :: groups => groups ≠ [] && groups.all isSixtieth
  | _ => false

def isFloat (cs : List Char) : Bool :=
  let body := unsigned cs
  let fraction (cs : List Char) : Bool := isExponent (cs.dropWhile isPart)
  let rest := body.dropWhile isPart
  infinityWords.contains (String.ofList body) || nanWords.contains (String.ofList cs) ||
    (body.head?.any Char.isDigit && rest.head? = some '.' && fraction (rest.drop 1)) ||
    (cs.head? = some '.' && (cs.drop 1).head?.any Char.isDigit && fraction (cs.drop 1)) ||
    (body.head?.any Char.isDigit && isSixtieths (rest.takeWhile (· ≠ '.')) &&
      (rest.dropWhile (· ≠ '.')).head? = some '.' &&
      ((rest.dropWhile (· ≠ '.')).drop 1).all isPart)

def isInt (cs : List Char) : Bool :=
  let someOf (p : Char → Bool) (cs : List Char) : Bool := cs ≠ [] && cs.all fun c => p c || c = '_'
  match unsigned cs with
  | ['0'] => true
  | '0' :: 'b' :: digits => someOf (fun c => c = '0' || c = '1') digits
  | '0' :: 'x' :: digits =>
    someOf (fun c => c.isDigit || ('a' ≤ c && c ≤ 'f') || ('A' ≤ c && c ≤ 'F')) digits
  | '0' :: digits => someOf (fun c => '0' ≤ c && c ≤ '7') digits
  | first :: rest =>
    first.isDigit && (rest.all isPart || isSixtieths (rest.dropWhile isPart))
  | [] => false

/-- Signs that are no values. -/
def signs : List String := ["!", "&", "*"]

/-- The text without one line feed at its end, if there is something before it. -/
def withoutLineFeed (cs : List Char) : List Char :=
  if cs.length > 1 ∧ cs.getLast? = some '\n' then cs.dropLast else cs

/-- The tag of a plain scalar. -/
def ofPlain (cs : List Char) : Tag :=
  let cs := withoutLineFeed cs
  let s := String.ofList cs
  if s ∈ truthWords then bool
  else if isFloat cs then float
  else if isInt cs then int
  else if s = "<<" then merge
  else if s ∈ nullWords then null
  else if Timestamp.isPlain cs then timestamp
  else if s = "=" then value
  else if s ∈ signs then unknown
  else text

end Tag

end MailMerge.Yaml
