import MailMerge.Xml.Reader.State

/-!
# Reading names, values and comments

Loops have fuel for one step a character.
-/

namespace MailMerge.Xml.Reader

/-! ## Names -/

/-- The most bytes of a name. -/
def maxName : Nat := 50000

def isTokenChar (c : Char) : Bool := isNameChar c || c = ':'

/-- The characters of a name as a text. -/
def named (cs : List Char) : Read String := do
  if maxName < byteSize cs then malformed
  return String.ofList cs

/-- A name without a colon, if there is one. -/
def plainName? : Read (Option String) := do
  match ← peek? with
  | some c => if isNameStart c then return some (← named (← takeWhile isNameChar)) else return none
  | none => return none

/-- A name that may have colons anywhere, if there is one. -/
def anyName? : Read (Option String) := do
  match ← peek? with
  | some c =>
    if isNameStart c || c = ':' then return some (← named (← takeWhile isTokenChar))
    else return none
  | none => return none

def anyName : Read String := do
  match ← anyName? with
  | some name => return name
  | none => malformed

/-- A word of name characters, at least one. -/
def token : Read String := do
  let cs ← takeWhile isTokenChar
  if cs.isEmpty then malformed
  named cs

/-- A name with or without a prefix, as written. -/
abbrev QualifiedName := Option String × String

/-- The name as written, without a gap. -/
def QualifiedName.text (n : QualifiedName) : String :=
  match n with
  | (some lead, base) => lead ++ ":" ++ base
  | (none, base) => base

/-- A name with or without a prefix. It is a fault if there are other colons than the one behind the
prefix; they are taken for parts of the name. -/
def qualifiedName : Read QualifiedName := do
  match ← plainName? with
  | none =>
    let name ← anyName
    note .fault
    return (none, name)
  | some first =>
    if ← skip ":" then
      match ← plainName? with
      | none =>
        note .fault
        return (none, first ++ ":" ++ String.ofList (← takeWhile isTokenChar))
      | some second =>
        if ← skip ":" then
          note .fault
          return (some first, second ++ ":" ++ ((← anyName?).getD ""))
        return (some first, second)
    return (none, first)

/-! ## Characters and references -/

def digitValue (base : Nat) (c : Char) : Option Nat :=
  let n :=
    if '0' ≤ c ∧ c ≤ '9' then c.toNat - '0'.toNat
    else if 'a' ≤ c ∧ c ≤ 'f' then c.toNat - 'a'.toNat + 10
    else if 'A' ≤ c ∧ c ≤ 'F' then c.toNat - 'A'.toNat + 10
    else base
  if n < base then some n else none

/-- The character of a reference by number, behind `&#`. -/
def numbered : Read Char := do
  let base := if ← skip "x" then 16 else 10
  let digits ← takeWhile fun c => (digitValue base c).isSome
  if digits.isEmpty then malformed
  expect ";"
  let n := digits.foldl (fun n c => min 0x110000 (n * base + (digitValue base c).getD 0)) 0
  if 0x10ffff < n ∨ (0xd800 ≤ n ∧ n ≤ 0xdfff) then malformed
  let c := Char.ofNat n
  if isXmlChar c then return c else malformed

/-- The entities that need no declaration. -/
def predefined? (name : String) : Option Char :=
  match name with
  | "lt" => some '<'
  | "gt" => some '>'
  | "amp" => some '&'
  | "quot" => some '"'
  | "apos" => some '\''
  | _ => none

/-- What an entity that is not declared amounts to: it is only a fault if it may be declared outside
of the document. -/
def undeclared : Read Unit := do
  if (← get).isComplete then malformed
  note .fault

/-- The text of an entity, if it is declared. -/
def entityText? (name : String) : Read (Option (List Char)) := do
  match (← get).entities.find? fun e => e.name = name with
  | some ⟨_, some text⟩ => return some text
  | some ⟨_, none⟩ => malformed
  | none =>
    undeclared
    return none

/-- The name of an entity in a reference, behind `&`. -/
def reference : Read String := do
  let name ← anyName
  expect ";"
  return name

/-- Reads the rest of an attribute value as characters, the last one first. White space becomes
spaces unless it is written by number. `entity?` reads the text of an entity, where entities may
stand; `fuel` bounds the characters; `stop` is the quote, which ends the value where it is not
inside of an entity. -/
def valueRest (entity? : Option (List Char → List Char → Read (List Char))) (stop : Option Char)
    (fuel : Nat) (acc : List Char) : Read (List Char) :=
  match fuel with
  | 0 => malformed
  | fuel + 1 => do
    let s ← get
    match s.rest with
    | [] => if stop.isNone then return acc else malformed
    | '<' :: _ => malformed
    | '&' :: '#' :: rest =>
      set { s with rest }
      valueRest entity? stop fuel ((← numbered) :: acc)
    | '&' :: rest =>
      set { s with rest }
      let name ← reference
      match predefined? name with
      | some c => valueRest entity? stop fuel (c :: acc)
      | none =>
        match ← entityText? name with
        | none => valueRest entity? stop fuel acc
        | some text =>
          match entity? with
          | none => malformed
          | some entity =>
            grow (byteSize text)
            let acc ← reading text (entity text acc)
            valueRest entity? stop fuel acc
    | c :: rest =>
      set { s with rest }
      if some c = stop then return acc
      else if !isXmlChar c then malformed
      else valueRest entity? stop fuel ((if isXmlSpace c then ' ' else c) :: acc)

/-- An attribute value between quotes, as characters, the last one first. `levels` bounds entities
in entities. -/
def valueChars (levels fuel : Nat) (stop : Option Char) (acc : List Char) : Read (List Char) :=
  match levels with
  | 0 => valueRest none stop fuel acc
  | levels + 1 =>
    valueRest (some fun text acc => valueChars levels (text.length + 1) none acc) stop fuel acc

/-- The text with single spaces between words and none around them. -/
def collapse (cs : List Char) : List Char :=
  let step (acc : List Char) (c : Char) : List Char :=
    if c = ' ' && (acc.isEmpty || acc.head? = some ' ') then acc else c :: acc
  ((cs.foldl step []).dropWhile (· = ' ')).reverse

/-- An attribute value with its quotes. The value of an attribute that is declared to have words is
collapsed. -/
def quotedValue (levels : Nat) (type : AttributeType) : Read String := do
  let s ← get
  match s.rest with
  | c :: rest =>
    if c = '"' ∨ c = '\'' then
      set { s with rest }
      let cs := (← valueChars levels (rest.length + 1) (some c) []).reverse
      return String.ofList (if type = .characters then cs else collapse cs)
    else malformed
  | [] => malformed

/-- A text in quotes without any references, of characters that have a property. -/
def quotedLiteral (p : Char → Bool) : Read (List Char) := do
  let cs ← if ← skip "\"" then upTo "\""
    else if ← skip "'" then upTo "'"
    else malformed
  if cs.all p then return cs else malformed

/-! ## Comments and instructions -/

/-- A comment behind its opening. Two hyphens only stand at its end. -/
def comment : Read Markup := do
  let data ← upTo "--"
  expect ">"
  if data.all isXmlChar then return .comment (String.ofList data) else malformed

def lowerCase (s : String) : String := String.ofList (s.toList.map Char.toLower)

/-- The name of an instruction. Names that begin with `xml` are reserved, but for two that have a
meaning. -/
def target : Read String := do
  let name ← anyName
  if lowerCase name = "xml" then malformed
  if name ∈ ["xml-stylesheet", "xml-model"] then return name
  if (lowerCase name).toList.take 3 = "xml".toList then note .warning
  if name.toList.contains ':' then note .fault
  return name

/-- A processing instruction behind its opening. -/
def instruction : Read Markup := do
  let name ← target
  if ← skip "?>" then return .instruction name none
  needSpace
  let data ← upTo "?>"
  if data.all isXmlChar then return .instruction name (some (String.ofList data)) else malformed

end MailMerge.Xml.Reader
