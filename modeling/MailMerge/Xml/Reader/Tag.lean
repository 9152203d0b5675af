import MailMerge.Xml.Address
import MailMerge.Xml.Reader.Text
import MailMerge.Xml.Scope

/-!
# Reading start tags

A start tag is read as it is written, and its names are then resolved with the declarations of
namespaces in it and around it. What is wrong with declarations and names is noted, and no more.
-/

namespace MailMerge.Xml.Reader

/-- The namespace of the attributes that declare namespaces. -/
def declarationSpace : String := "http://www.w3.org/2000/xmlns/"

/-- An attribute as written. -/
structure RawAttribute where
  name : QualifiedName
  value : String

/-- What a start tag has: attributes, and declarations of namespaces. -/
structure RawTag where
  attributes : List RawAttribute
  declarations : List Declaration

/-- What is wrong with the address of a namespace, if anything is. -/
def addressNote (space : String) : Option Severity :=
  if Address.isAbsolute space.toList then none
  else if Address.isRelative space.toList then some .warning
  else some .fault

/-- The declaration that an attribute makes, if it makes one that is allowed. -/
def declaration? (a : RawAttribute) : Read (Option Declaration) := do
  match a.name with
  | (none, "xmlns") =>
    if a.value ≠ "" then
      if let some s := addressNote a.value then note s
    if a.value = xmlSpace ∨ a.value = declarationSpace then
      note .fault
      return none
    return some ⟨none, a.value⟩
  | (some "xmlns", base) =>
    if base = "xml" then
      if a.value ≠ xmlSpace then note .fault
      return none
    if a.value = xmlSpace ∨ base = "xmlns" ∨ a.value = declarationSpace ∨ a.value = "" then
      note .fault
      return none
    if addressNote a.value = some .fault then note .fault
    return some ⟨some base, a.value⟩
  | _ => return none

def QualifiedName.isDeclaration (n : QualifiedName) : Bool :=
  n = (none, "xmlns") || n.1 = some "xmlns"

/-- An attribute of an element. The value of `xml:space` should be one of two words. -/
def rawAttribute (levels : Nat) (element : QualifiedName) : Read RawAttribute := do
  let name ← qualifiedName
  let _ ← space
  expect "="
  let _ ← space
  let declared? := (← get).attributes.find? fun d =>
    d.element = element.text && d.name = name.text
  let value ← quotedValue levels ((declared?.map (·.type)).getD .characters)
  if name = (some "xml", "space") && value ≠ "default" && value ≠ "preserve" then note .warning
  return ⟨name, value⟩

/-- The attributes of a start tag, up to where it ends. Two declarations of one prefix cannot stand
beside each other. -/
def rawTag (levels fuel : Nat) (element : QualifiedName) (tag : RawTag) : Read RawTag :=
  match fuel with
  | 0 => malformed
  | fuel + 1 => do
    match (← get).rest with
    | '>' :: _ => return tag
    | '/' :: '>' :: _ => return tag
    | _ =>
      let a ← rawAttribute levels element
      let tag ← if a.name.isDeclaration then
          match ← declaration? a with
          | some d =>
            if tag.declarations.any fun e => e.lead = d.lead then malformed
            pure { tag with declarations := tag.declarations ++ [d] }
          | none => pure tag
        else pure { tag with attributes := tag.attributes ++ [a] }
      let separated ← space
      match (← get).rest with
      | '>' :: _ => return tag
      | '/' :: '>' :: _ => return tag
      | _ => if separated then rawTag levels fuel element tag else malformed

/-! ## Declared attributes -/

/-- The declaration that an attribute name makes with a value that it need not have been given. -/
def defaultDeclaration? (name value : String) : Option Declaration :=
  if name = "xmlns" then some ⟨none, value⟩
  else (stripFront "xmlns:".toList name.toList).map fun lead => ⟨some (String.ofList lead), value⟩

/-- The attributes of an element that have values without being there. -/
def defaults (declared : List Declared) (element : QualifiedName) : List (String × String) :=
  declared.filterMap fun d =>
    match d.otherwise with
    | .value _ text => if d.element = element.text then some (d.name, text) else none
    | _ => none

/-- The declarations with those that need not be there. -/
def withDefaults (declarations : List Declaration) (found : List (String × String)) :
    List Declaration :=
  (found.filterMap fun (name, value) => defaultDeclaration? name value).foldl
    (fun ds d => if d.lead = some "xml" || ds.any (fun e => e.lead = d.lead) then ds else ds ++ [d])
    declarations

/-- The prefix and the rest of a name. -/
def splitName (name : String) : QualifiedName :=
  match breakAt [':'] name.toList with
  | some (lead, base) => (some (String.ofList lead), String.ofList base)
  | none => (none, name)

/-! ## Names -/

/-- The namespace of a prefix, if it is bound. -/
def bound? (scope : Scope) (lead : String) : Option String :=
  if lead = "xml" then some xmlSpace else (scope.space? (some lead)).filter (· ≠ "")

/-- The namespace of a prefix. One that is not bound is a fault, and stays a part of the name. -/
def resolve (scope : Scope) (name : QualifiedName) (forAttribute : Bool) :
    Read (Name × Option String) := do
  match name with
  | (none, base) =>
    if forAttribute then return (⟨"", base⟩, none)
    else return (⟨(scope.space? none).getD "", base⟩, none)
  | (some lead, base) =>
    match bound? scope lead with
    | some space => return (⟨space, base⟩, some lead)
    | none =>
      note .fault
      return (⟨"", lead ++ ":" ++ base⟩, none)

def attributes (scope : Scope) : List RawAttribute → Read (List Attribute)
  | [] => return []
  | a :: rest => do
    let (name, lead) ← resolve scope a.name true
    return ⟨name, lead, a.value⟩ :: (← attributes scope rest)

/-- Looks for attributes that stand there twice, which is only a fault if they have different
prefixes for one namespace. Those with a prefix that is not bound are left out. -/
def checkDoubles : List Attribute → Read Unit
  | [] => return ()
  | a :: rest => do
    if rest.any fun b => b.name = a.name && b.lead = a.lead then malformed
    if a.name.space ≠ "" && rest.any fun b => b.name = a.name then note .fault
    checkDoubles rest

/-- Looks at the prefixes of attributes that have values without being there. -/
def checkDefaults (scope : Scope) (given : List Attribute) : List (String × String) → Read Unit
  | [] => return ()
  | (name, _) :: rest => do
    match splitName name with
    | (some lead, base) =>
      if lead ≠ "xmlns" then
        match bound? scope lead with
        | some space =>
          if given.any fun a => a.name = ⟨space, base⟩ && a.lead ≠ some lead then note .fault
        | none => note .fault
    | (none, _) => pure ()
    checkDefaults scope given rest

/-! ## Identifiers -/

/-- Whether a text is a name without a colon, with white space around it. -/
def isPlainName (s : String) : Bool :=
  let blank (c : Char) : Bool := isXmlSpace c
  match ((s.toList.dropWhile blank).reverse.dropWhile blank).reverse with
  | c :: rest => isNameStart c && rest.all isNameChar
  | [] => false

/-- Takes an identifier, which no element before may have. -/
def identify (id : String) : Read Unit := do
  let s ← get
  if id = "" || s.identifiers.contains id then note .fault
  else set { s with identifiers := id :: s.identifiers }

/-- Takes the identifiers that an element has. Elements in entities have none. -/
def identifyAll (element : QualifiedName) : List RawAttribute → Read Unit
  | [] => return ()
  | a :: rest => do
    let s ← get
    if s.within = 0 then
      if a.name = (some "xml", "id") then
        if !isPlainName a.value then note .fault
        identify a.value
      else if s.attributes.any fun d =>
          d.element = element.text && d.name = a.name.text && d.type = .identity then
        identify a.value
    identifyAll element rest

/-! ## Tags -/

/-- A start tag behind its bracket. Gives the name as written, the tag, which has no number yet, the
scope inside of it and whether the element ends right away. -/
def startTag (levels : Nat) (scope : Scope) : Read (String × Tag × Scope × Bool) := do
  let written ← qualifiedName
  let separated ← space
  let raw ← match (← get).rest with
    | '>' :: _ => pure ⟨[], []⟩
    | '/' :: '>' :: _ => pure ⟨[], []⟩
    | rest => if separated then rawTag levels (rest.length + 1) written ⟨[], []⟩ else malformed
  let isEmpty ← if ← skip "/>" then pure true else do
    expect ">"
    pure false
  let silent := defaults (← get).attributes written
  let declarations := withDefaults raw.declarations silent
  let scope := ⟨declarations, none⟩ :: scope
  let found ← attributes scope raw.attributes
  checkDoubles ((raw.attributes.zip found).filterMap fun (written, a) =>
    if written.name.1.isSome && a.lead.isNone then none else some a)
  checkDefaults scope found silent
  let (name, lead) ← resolve scope written false
  identifyAll written raw.attributes
  return (written.text, ⟨0, name, lead, declarations, found⟩, scope, isEmpty)

end MailMerge.Xml.Reader
