import MailMerge.Xml.Writer

/-!
# Document types

What a document says about its own kind: where the external part of its type is, and the
declarations of the internal part. `DocumentType.write` writes a type with one declaration on a
line, which is another text than the one it was read from, but one that declares the same.
-/

namespace MailMerge.Xml

/-- How often a part of an element's content stands there. -/
inductive Occurrence where
  | once
  | optional
  | repeated
  | oneOrMore
deriving DecidableEq

namespace Occurrence

def write : Occurrence → List Char
  | once => []
  | optional => ['?']
  | repeated => ['*']
  | oneOrMore => ['+']

/-- Whether the part may be missing. -/
def canMiss (o : Occurrence) : Bool := o = optional || o = repeated

end Occurrence

/-- How the two parts of a group go together. -/
inductive Connector where
  | sequence
  | choice
deriving DecidableEq

def Connector.write : Connector → List Char
  | sequence => " , ".toList
  | choice => " | ".toList

/-- What the content of an element is made of: characters, elements, and groups. A group of more
than two parts has the ones behind the first as its second part. -/
inductive Particle where
  | characters (occurs : Occurrence)
  | element (name : String) (occurs : Occurrence)
  | group (connector : Connector) (first second : Particle) (occurs : Occurrence)
deriving DecidableEq

namespace Particle

def occurs : Particle → Occurrence
  | characters o => o
  | element _ o => o
  | group _ _ _ o => o

def withOccurrence (o : Occurrence) : Particle → Particle
  | characters _ => characters o
  | element name _ => element name o
  | group connector first second _ => group connector first second o

/-- What stands in the brackets that are around `p`, if it is a group, and `p` itself if not. -/
def writeInner : Particle → List Char
  | characters _ => "#PCDATA".toList
  | element name _ => name.toList
  | group connector first second _ =>
    let part (p : Particle) (text : List Char) : List Char :=
      match p with
      | group own _ _ o =>
        if own = connector && o = .once then text else '(' :: text ++ ')' :: o.write
      | p => text ++ p.occurs.write
    part first first.writeInner ++ connector.write ++ part second second.writeInner

/-- The whole content of an element, which is in brackets. -/
def write (p : Particle) : List Char := '(' :: p.writeInner ++ ')' :: p.occurs.write

end Particle

inductive ContentModel where
  | empty
  | any
  | particle (p : Particle)
deriving DecidableEq

def ContentModel.write : ContentModel → List Char
  | empty => "EMPTY".toList
  | any => "ANY".toList
  | particle p => p.write

/-- What the values of an attribute are: any characters, words of a kind, or words of a list. -/
inductive AttributeType where
  | characters
  | words (kind : String)
  | oneOf (kind : String) (values : List String)
deriving DecidableEq

namespace AttributeType

/-- The type of attributes that tell elements apart. -/
def identity : AttributeType := words "ID"

def write : AttributeType → List Char
  | characters => "CDATA".toList
  | words kind => kind.toList
  | oneOf kind values =>
    kind.toList ++ '(' :: List.intercalate " | ".toList (values.map (·.toList)) ++ [')']

end AttributeType

/-- What holds for an element without the attribute: it is a fault, or it is nothing, or there is a
value, which may be the only one that is allowed. -/
inductive AttributeDefault where
  | required
  | implied
  | value (isFixed : Bool) (text : String)
deriving DecidableEq

def AttributeDefault.write : AttributeDefault → List Char
  | required => "#REQUIRED".toList
  | implied => "#IMPLIED".toList
  | value isFixed text =>
    (if isFixed then "#FIXED ".toList else []) ++
      '"' :: text.toList.flatMap escapeValueChar ++ ['"']

/-- A literal in the quotes that do not occur in it. -/
def requote (cs : List Char) : List Char :=
  if !cs.contains '"' then '"' :: cs ++ ['"']
  else if !cs.contains '\'' then '\'' :: cs ++ ['\'']
  else '"' :: (cs.flatMap fun c => if c = '"' then "&quot;".toList else [c]) ++ ['"']

/-- Where something outside of the document is: its public and its system identifier. -/
structure ExternalId where
  publicId : Option String
  systemId : Option String
deriving DecidableEq

def ExternalId.write (e : ExternalId) : List Char :=
  let system := (e.systemId.map fun s => requote s.toList).toList
  match e.publicId with
  | some p => "PUBLIC ".toList ++ List.intercalate [' '] (requote p.toList :: system)
  | none => "SYSTEM ".toList ++ system.flatten

/-- What an entity stands for: a text, which is here as it was written, or something outside of the
document, which is in a notation if it is not text. -/
inductive EntityValue where
  | literal (written : List Char)
  | external (place : ExternalId) (format : Option String)
deriving DecidableEq

def EntityValue.write : EntityValue → List Char
  | literal written => requote written
  | external place none => place.write
  | external place (some format) => place.write ++ " NDATA ".toList ++ format.toList

/-- A declaration of the internal part of a document type. -/
inductive TypeDeclaration where
  | element (name : String) (model : ContentModel)
  | attributeOf (owner name : String) (type : AttributeType) (otherwise : AttributeDefault)
  | entity (isParameter : Bool) (name : String) (value : EntityValue)
  | format (name : String) (place : ExternalId)
  | markup (m : Markup)
deriving DecidableEq

namespace TypeDeclaration

def write : TypeDeclaration → List Char
  | element name model =>
    "<!ELEMENT ".toList ++ name.toList ++ ' ' :: model.write ++ ">\n".toList
  | attributeOf owner name type otherwise =>
    "<!ATTLIST ".toList ++ owner.toList ++ ' ' :: name.toList ++ ' ' :: type.write ++
      ' ' :: otherwise.write ++ ">\n".toList
  | entity isParameter name value =>
    "<!ENTITY ".toList ++ (if isParameter then "% ".toList else []) ++ name.toList ++
      ' ' :: value.write ++ ">\n".toList
  | format name place =>
    "<!NOTATION ".toList ++ name.toList ++ ' ' :: place.write ++ " >\n".toList
  | markup m => m.write

def isMarkup : TypeDeclaration → Bool
  | markup _ => true
  | _ => false

def isFormat : TypeDeclaration → Bool
  | format _ _ => true
  | _ => false

end TypeDeclaration

/-- A document type: the name of the root, where the external part is, and the declarations of the
internal one. -/
structure DocumentType where
  name : String
  place : ExternalId
  declarations : List TypeDeclaration
deriving DecidableEq

namespace DocumentType

/-- The place of the external part, in which empty identifiers are as good as none. -/
def writePlace (place : ExternalId) : List Char :=
  let quoted (s : String) : List Char :=
    let quote := if s.toList.contains '"' then '\'' else '"'
    quote :: s.toList ++ [quote]
  match place.publicId.filter (· ≠ ""), place.systemId.filter (· ≠ "") with
  | some p, some s => " PUBLIC \"".toList ++ p.toList ++ "\" ".toList ++ quoted s
  | some p, none => " PUBLIC \"".toList ++ p.toList ++ ['"']
  | none, some s => " SYSTEM ".toList ++ quoted s
  | none, none => []

/-- The internal part, with the notations in front. There is none if it declares nothing. -/
def writeInternal (declarations : List TypeDeclaration) : List Char :=
  if declarations.all (·.isMarkup) then ">\n".toList
  else
    let (formats, others) := declarations.partition (·.isFormat)
    " [\n".toList ++ (formats ++ others).flatMap (·.write) ++ "]>\n".toList

def write (t : DocumentType) : List Char :=
  "<!DOCTYPE ".toList ++ t.name.toList ++ writePlace t.place ++ writeInternal t.declarations

end DocumentType

end MailMerge.Xml
