import MailMerge.Xml.Reader.ContentModel

/-!
# Reading document types

A document type declares entities and attributes. The first declaration of a name is the one that
counts, and is the only one that is kept. Parameter entities are declared, but are not used: a
reference to one makes it unsure what else is declared.
-/

namespace MailMerge.Xml.Reader

/-! ## Identifiers -/

/-- A character of a public identifier. -/
def isPublicChar (c : Char) : Bool :=
  ('a' ≤ c && c ≤ 'z') || ('A' ≤ c && c ≤ 'Z') || ('0' ≤ c && c ≤ '9') || c = ' ' || c = '\r' ||
    c = '\n' || "-'()+,./:=?;!*#@$_%".toList.contains c

def systemLiteral : Read String := return String.ofList (← quotedLiteral isXmlChar)

/-- Where something outside of the document is. A notation can do without a system identifier behind
a public one. -/
def externalId (forNotation : Bool) : Read ExternalId := do
  if ← skip "SYSTEM" then
    needSpace
    return ⟨none, some (← systemLiteral)⟩
  if ← skip "PUBLIC" then
    needSpace
    let publicId := some (String.ofList (← quotedLiteral isPublicChar))
    let separated ← space
    let next ← peek?
    if forNotation && !(separated && (next = some '"' || next = some '\'')) then
      return ⟨publicId, none⟩
    if !separated then malformed
    return ⟨publicId, some (← systemLiteral)⟩
  return ⟨none, none⟩

/-! ## Entities -/

/-- What a parameter entity amounts to. It is looked for among the other entities, with whose text
it has nothing to do. Says whether there is one of the name. -/
def parameterReference : Read Bool := do
  let name ← anyName
  expect ";"
  modify fun s => { s with isComplete := s.standsAlone }
  return (← entityText? name).isSome

/-- The text of an entity from its declaration, in which only numbered references are replaced. -/
def entityValue (fuel : Nat) (acc : List Char) : Read (List Char) :=
  match fuel with
  | 0 => malformed
  | fuel + 1 => do
    let s ← get
    match s.rest with
    | [] => return acc.reverse
    | '%' :: rest =>
      set { s with rest }
      if ← parameterReference then malformed
      return acc.reverse
    | '&' :: '#' :: rest =>
      set { s with rest }
      entityValue fuel ((← numbered) :: acc)
    | '&' :: rest =>
      set { s with rest }
      let name ← reference
      entityValue fuel ((';' :: name.toList.reverse ++ ['&']) ++ acc)
    | c :: rest =>
      set { s with rest }
      if isXmlChar c then entityValue fuel (c :: acc) else malformed

/-- Whether a text may be declared for an entity that needs no declaration: the character itself, if
it is no markup, or its number. -/
def mayRedeclare (c : Char) (text : List Char) : Bool :=
  let digits (base : Nat) : List Char := Nat.toDigits base c.toNat
  text = "&#".toList ++ digits 10 ++ [';'] ||
    text.map Char.toLower = "&#x".toList ++ digits 16 ++ [';'] && text.take 3 = "&#x".toList ||
    text = [c] && c ≠ '<' && c ≠ '&'

/-- Declares an entity, and says whether the declaration counts. -/
def declareEntity (name : String) (text? : Option (List Char)) : Read Bool := do
  if (predefined? name).any fun c => !text?.any (mayRedeclare c) then
    note .warning
    return false
  match (← get).entities.find? fun e => e.name = name with
  | some e =>
    if e.text?.isNone && text?.isSome then malformed
    return false
  | none =>
    modify fun s => { s with entities := s.entities ++ [⟨name, text?⟩] }
    return true

/-- Declares a parameter entity, and says whether the declaration counts. A name that has something
outside of the document as an entity cannot have a text as a parameter. -/
def declareParameter (name : String) (hasText : Bool) : Read Bool := do
  let s ← get
  if hasText && s.entities.any fun e => e.name = name && e.text?.isNone then malformed
  if s.parameters.contains name then return false
  set { s with parameters := name :: s.parameters }
  return true

/-- An entity declaration behind its keyword. A colon in its name is a fault. -/
def entityDeclaration : Read (List TypeDeclaration) := do
  needSpace
  let isParameter ← skip "%"
  if isParameter then needSpace
  let name ← anyName
  if name.toList.contains ':' then note .fault
  needSpace
  let (value, text?) ← match ← peek? with
    | some c =>
      if c = '"' || c = '\'' then do
        let written ← quotedLiteral isXmlChar
        let text ← reading written (entityValue (written.length + 1) [])
        let shown := if isParameter then
          text.flatMap fun c => if c = '%' then "&#37;".toList else [c] else written
        pure (EntityValue.literal shown, some text)
      else do
        let place ← externalId false
        if place.systemId.isNone || place.systemId.any (·.toList.contains '#') then malformed
        let separated ← space
        if !isParameter && (← skip "NDATA") then
          if !separated then malformed
          needSpace
          pure (EntityValue.external place (some (← anyName)), none)
        else pure (EntityValue.external place none, none)
    | none => malformed
  let _ ← space
  expect ">"
  let counts ← if isParameter then declareParameter name text?.isSome
    else declareEntity name text?
  return if counts then [.entity isParameter name value] else []

/-! ## Elements, attributes and notations -/

/-- An element declaration behind its keyword. The first one of a name counts. -/
def elementDeclaration (before : List TypeDeclaration) : Read (List TypeDeclaration) := do
  needSpace
  let name ← anyName
  needSpace
  let model ← contentModel
  let _ ← space
  expect ">"
  let isKnown := before.any fun
    | .element other _ => other = name
    | _ => false
  return if isKnown then [] else [.element name model]

/-- A notation declaration behind its keyword. A colon in its name is a fault. -/
def notationDeclaration (before : List TypeDeclaration) : Read (List TypeDeclaration) := do
  needSpace
  let name ← anyName
  if name.toList.contains ':' then note .fault
  needSpace
  let place ← externalId true
  let _ ← space
  expect ">"
  if place.publicId.isNone && place.systemId.isNone then malformed
  let isKnown := before.any fun
    | .format other _ => other = name
    | _ => false
  return if isKnown then [] else [.format name place]

/-- The words of a list behind an opening bracket or a bar. A word named twice is a fault. -/
def choices (fuel : Nat) (word : Read String) (done : List String) : Read (List String) :=
  match fuel with
  | 0 => malformed
  | fuel + 1 => do
    let _ ← space
    let w ← word
    let isDouble := done.contains w
    if isDouble then note .fault
    let done := if isDouble then done else w :: done
    let _ ← space
    if ← skip "|" then choices fuel word done
    else
      expect ")"
      return done.reverse

/-- The kinds of words, a longer name before its own beginning. -/
def wordKinds : List String :=
  ["IDREFS", "IDREF", "ID", "ENTITY", "ENTITIES", "NMTOKENS", "NMTOKEN"]

def attributeType : Read AttributeType := do
  let fuel := (← get).rest.length + 1
  if ← skip "CDATA" then return .characters
  if let some kind ← wordKinds.findM? skip then return .words kind
  if ← skip "NOTATION" then
    needSpace
    expect "("
    return .oneOf "NOTATION " (← choices fuel anyName [])
  expect "("
  return .oneOf "" (← choices fuel token [])

def attributeDefault (type : AttributeType) : Read AttributeDefault := do
  if ← skip "#REQUIRED" then return .required
  if ← skip "#IMPLIED" then return .implied
  let isFixed ← skip "#FIXED"
  if isFixed then needSpace
  return .value isFixed (← quotedValue maxNesting type)

/-- The attributes of an attribute list. An attribute that identifies elements everywhere has to be
declared for that, or it is a fault. -/
def attributeDeclarations (fuel : Nat) (element : String) (acc : List TypeDeclaration) :
    Read (List TypeDeclaration) :=
  match fuel with
  | 0 => malformed
  | fuel + 1 => do
    if ← skip ">" then return acc.reverse
    let name ← anyName
    needSpace
    let type ← attributeType
    needSpace
    let otherwise ← attributeDefault type
    let separated ← space
    if !separated && (← peek?) ≠ some '>' then malformed
    if name = "xml:id" && type ≠ .identity then note .fault
    if (← get).attributes.any fun d => d.element = element && d.name = name then
      attributeDeclarations fuel element acc
    else
      let declared : Declared := ⟨element, name, type, otherwise⟩
      modify fun s => { s with attributes := s.attributes ++ [declared] }
      attributeDeclarations fuel element (.attributeOf element name type otherwise :: acc)

def attributeList : Read (List TypeDeclaration) := do
  needSpace
  let element ← anyName
  let _ ← space
  attributeDeclarations ((← get).rest.length + 1) element []

/-! ## The type -/

/-- The internal part of a document type, up to its closing bracket. -/
def internalPart (fuel : Nat) (done : List TypeDeclaration) : Read (List TypeDeclaration) :=
  match fuel with
  | 0 => malformed
  | fuel + 1 => do
    let _ ← space
    if ← skip "]" then return done
    if ← skip "%" then
      if ← parameterReference then note .warning
      internalPart fuel done
    else
      let found ←
        if ← skip "<!--" then pure [.markup (← comment)]
        else if ← skip "<?" then pure [.markup (← instruction)]
        else if ← skip "<!ENTITY" then entityDeclaration
        else if ← skip "<!ELEMENT" then elementDeclaration done
        else if ← skip "<!ATTLIST" then attributeList
        else if ← skip "<!NOTATION" then notationDeclaration done
        else malformed
      internalPart fuel (done ++ found)

/-- A document type behind its keyword. -/
def documentType : Read DocumentType := do
  needSpace
  let name ← anyName
  let _ ← space
  let place ← externalId false
  if place.publicId.isSome || place.systemId.isSome then
    modify fun s => { s with isComplete := s.standsAlone }
  let _ ← space
  let declarations ← if ← skip "[" then internalPart ((← get).rest.length + 1) [] else pure []
  let _ ← space
  expect ">"
  return ⟨name, place, declarations⟩

end MailMerge.Xml.Reader
