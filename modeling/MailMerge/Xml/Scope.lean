import MailMerge.Xml.Content

/-!
# Namespaces in scope

An element that is copied to another place keeps the names of its elements and attributes, but the
prefixes they are written with depend on the place. `Element.standalone` declares on a copy what it
uses, and `Element.moveInto` drops the declarations that the new place makes redundant and takes
the prefixes bound there.
-/

namespace MailMerge.Xml

/-- The namespace of the prefix `xml`, which is bound everywhere. -/
def xmlSpace : String := "http://www.w3.org/XML/1998/namespace"

/-- What an element says about namespaces: its declarations, and what its name is written with. -/
structure Level where
  declarations : List Declaration
  own : Option Declaration

/-- What the elements around a place say about namespaces, the innermost element first. -/
abbrev Scope := List Level

/-- What the name of an element is written with, if it has a namespace. -/
def Tag.own (tag : Tag) : Option Declaration :=
  if tag.name.space = "" then none else some ⟨tag.lead, tag.name.space⟩

namespace Scope

/-- The scope inside of an element. -/
def ofElements (around : List Element) : Scope :=
  around.map fun e => ⟨e.tag.declarations, e.tag.own⟩

/-- The namespace bound to a prefix. -/
def space? (scope : Scope) (lead : Option String) : Option String :=
  scope.findSome? fun level => (level.declarations.find? fun d => d.lead = lead).map (·.space)

/-- The first prefix bound to a namespace, going outwards, that no element further in has bound to
another. The name of an element counts behind its declarations, except for the innermost one. An
attribute needs a real prefix. -/
def leadFor? (scope : Scope) (space : String) (forAttribute : Bool) : Option (Option String) :=
  match scope with
  | [] => none
  | level :: rest => go [] (⟨level.declarations, none⟩ :: rest)
where
  /-- Goes outwards with the declarations passed so far. -/
  go (passed : List Declaration) : Scope → Option (Option String)
    | [] => none
    | level :: rest =>
      match (level.declarations ++ level.own.toList).find? fun d =>
          d.space = space && !(forAttribute && d.lead.isNone) &&
            !passed.any fun p => p.lead = d.lead with
      | some d => some d.lead
      | none => go (passed ++ level.declarations) rest

/-- The first prefix of the form `ns0`, `ns1` that is not bound, with the number behind it. Only as
many are tried as there are declarations, and one more. -/
def freshLead (scope : Scope) (made : Nat) : String × Nat :=
  go made (scope.flatMap (·.declarations)).length
where
  go (n : Nat) : Nat → String × Nat
    | 0 => ("ns" ++ toString n, n + 1)
    | fuel + 1 =>
      let lead := "ns" ++ toString n
      if (scope.space? (some lead)).isSome then go (n + 1) fuel else (lead, n + 1)

end Scope

/-- Whether a name needs a declaration. -/
def Name.isDeclared (n : Name) : Bool := n.space ≠ "" && n.space ≠ xmlSpace

namespace Content

/-- The prefixes that content uses and does not declare, with their namespaces. -/
def freeLeads (bound : List (Option String)) : Content → List Declaration
  | nil => []
  | text _ rest => rest.freeLeads bound
  | markup _ rest => rest.freeLeads bound
  | element tag inner rest =>
    let bound' := tag.declarations.map (·.lead) ++ bound
    let own := (if tag.name.isDeclared then [⟨tag.lead, tag.name.space⟩] else []) ++
      (tag.attributes.filter (·.name.isDeclared)).map fun a => ⟨a.lead, a.name.space⟩
    own.filter (fun d => d.lead ∉ bound') ++ inner.freeLeads bound' ++ rest.freeLeads bound

end Content

namespace Element

/-- A copy that declares all it uses. -/
def standalone (e : Element) : Element :=
  let free := (Content.element e.tag e.inner .nil).freeLeads []
  { e with tag.declarations := e.tag.declarations ++ free.eraseDups }

end Element

/-- What changes while an element moves to another place: the declarations that it gets on top of
its own, and the number of prefixes that have been made up in the document there. -/
structure Moving where
  extra : List Declaration
  made : Nat

/-- Where a part of a moving element stands: the elements around it that move too, without the
outermost one, whose declarations are `kept` and whose name is written with `own`; what the element
moves into; and what stands for the declarations that the part came with, the innermost first. -/
structure Inside where
  inner : Scope
  kept : List Declaration
  own : Option Declaration
  outer : Scope
  renamed : List (Declaration × Declaration)

namespace Moving

/-- The scope of the outermost moving element, without its name. -/
def top (m : Moving) (here : Inside) : Scope := ⟨here.kept ++ m.extra, none⟩ :: here.outer

/-- The scope of a part. -/
def scope (m : Moving) (here : Inside) : Scope :=
  here.inner ++ ⟨here.kept ++ m.extra, here.own⟩ :: here.outer

/-- What stands for declarations, given the scope above: another one of the same namespace, or
themselves. -/
def settle (above : Scope) (ds : List Declaration) : List (Declaration × Declaration) :=
  ds.map fun d =>
    match above.leadFor? d.space false with
    | some lead => (d, ⟨lead, d.space⟩)
    | none => (d, d)

/-- The declarations that are not redundant, given the scope above. -/
def keep (above : Scope) (ds : List Declaration) : List Declaration :=
  ds.filter fun d => (above.leadFor? d.space false).isNone

/-- The prefix for a name in the new place. An attribute with a prefix keeps one. If there is none,
the outermost element gets a declaration, with the prefix of the name if it is free. -/
def leadOf (here : Inside) (m : Moving) (old : Declaration) (forAttribute : Bool) :
    Moving × Option String :=
  let build : Moving × Option String :=
    let scope := m.top here
    match scope.leadFor? old.space forAttribute with
    | some lead => (m, lead)
    | none =>
      let (lead, made) := match old.lead with
        | some wanted =>
          if (scope.space? (some wanted)).isSome then scope.freshLead m.made else (wanted, m.made)
        | none => scope.freshLead m.made
      (⟨m.extra ++ [⟨some lead, old.space⟩], made⟩, some lead)
  match here.renamed.find? fun (d, _) => d = old with
  | some (_, new) =>
    if forAttribute && old.lead.isSome && new.lead.isNone then build else (m, new.lead)
  | none => build

def moveAttributes (here : Inside) (m : Moving) : List Attribute → Moving × List Attribute
  | [] => (m, [])
  | a :: rest =>
    let (m, lead) :=
      if a.name.isDeclared then leadOf here m ⟨a.lead, a.name.space⟩ true else (m, a.lead)
    let (m, rest) := moveAttributes here m rest
    (m, { a with lead } :: rest)

/-- Moves a tag, of the declarations of which only some are kept. -/
def moveTag (here : Inside) (m : Moving) (tag : Tag) (declarations : List Declaration) :
    Moving × Tag :=
  let (m, lead) :=
    if tag.name.isDeclared then leadOf here m ⟨tag.lead, tag.name.space⟩ false else (m, tag.lead)
  let (m, attributes) := moveAttributes here m tag.attributes
  (m, { tag with lead, declarations, attributes })

/-- Moves content that stands inside of the moved element. -/
def moveContent (here : Inside) (m : Moving) : Content → Moving × Content
  | .nil => (m, .nil)
  | .text cs rest =>
    let (m, rest) := moveContent here m rest
    (m, .text cs rest)
  | .markup k rest =>
    let (m, rest) := moveContent here m rest
    (m, .markup k rest)
  | .element tag inner rest =>
    let above := m.scope here
    let kept := keep above tag.declarations
    let within := { here with renamed := settle above tag.declarations ++ here.renamed }
    let (m, tag) := moveTag within m tag kept
    let (m, inner) := moveContent { within with inner := ⟨kept, tag.own⟩ :: here.inner } m inner
    let (m, rest) := moveContent here m rest
    (m, .element tag inner rest)

end Moving

/-- The element as it is written in the given scope, of a document in which `made` prefixes have
been made up, and how many have been made up then. -/
def Element.moveInto (e : Element) (scope : Scope) (made : Nat) : Element × Nat :=
  let kept := Moving.keep scope e.tag.declarations
  let here : Inside := ⟨[], kept, none, scope, Moving.settle scope e.tag.declarations⟩
  let (m, tag) := Moving.moveTag here ⟨[], made⟩ e.tag kept
  let (m, inner) := Moving.moveContent { here with own := tag.own } m e.inner
  (⟨{ tag with declarations := kept ++ m.extra }, inner⟩, m.made)

end MailMerge.Xml
