import MailMerge.Yaml.Tag
import MailMerge.Yaml.Token

/-!
# Nodes

The nodes that the tokens of a text describe. Every node has a number, and a node says by their
numbers which nodes it has inside: so an alias is the node that it stands for, which has to have
begun before the alias, and a node may be inside of itself.
-/

namespace MailMerge.Yaml

inductive Node where
  | scalar (tag : Tag) (text : Points)
  | sequence (tag : Tag) (items : List Nat)
  | mapping (tag : Tag) (entries : List (Nat × Nat))

namespace Node

def tag : Node → Tag
  | scalar tag _ => tag
  | sequence tag _ => tag
  | mapping tag _ => tag

def withTag (tag : Tag) : Node → Node
  | scalar _ text => scalar tag text
  | sequence _ items => sequence tag items
  | mapping _ entries => mapping tag entries

/-- A scalar without text. -/
def empty : Node := scalar .null []

end Node

/-- The nodes of a text, each at the place that its number says. -/
abbrev Graph := Array Node

/-- What is left of the tokens, the numbers of anchors, what handles stand for, the nodes that have
begun, and how many collections are open. -/
structure Reading where
  tokens : List Token
  anchors : List (List Char × Nat)
  handles : List (List Char × List Char)
  graph : Graph
  depth : Nat

/-- Why tokens describe no nodes: the text is at fault, or there is no room for a collection inside
of others. -/
inductive NodeFault where
  | text (f : Fault)
  | tooDeep

abbrev NodeReader := EStateM NodeFault Reading

namespace NodeReader

def fail {α : Type} : NodeReader α := throw (.text .malformed)

def peek : NodeReader Token := do
  match (← get).tokens with
  | .broken f :: _ => throw (.text f)
  | t :: _ => return t
  | [] => fail

def skip : NodeReader Unit := modify fun c => { c with tokens := c.tokens.drop 1 }

/-- Takes a token away if it is next. -/
def skip? (t : Token) : NodeReader Bool := do
  if (← peek) = t then
    skip
    return true
  else return false

/-- A number for a node. -/
def fresh : NodeReader Nat :=
  modifyGet fun c => (c.graph.size, { c with graph := c.graph.push .empty })

/-- Says what the node with a number is. -/
def define (id : Nat) (n : Node) : NodeReader Nat := do
  modify fun c => { c with graph := c.graph.setIfInBounds id n }
  return id

/-- What `x` reads inside of a further collection. -/
def inside {α : Type} (room : Room) (x : NodeReader α) : NodeReader α := do
  let c ← get
  if !room.collections c.depth c.tokens then throw .tooDeep
  modify fun c => { c with depth := c.depth + 1 }
  let a ← x
  modify fun c => { c with depth := c.depth - 1 }
  return a

/-- A scalar without text. -/
def emptyScalar : NodeReader Nat := fresh

/-- The node that `x` reads, or a scalar without text if one of some tokens is next. -/
def orEmpty (stops : List Token) (x : NodeReader Nat) : NodeReader Nat := do
  if (← peek) ∈ stops then emptyScalar else x

def anchor? : NodeReader (Option (List Char)) := do
  match ← peek with
  | .anchor name =>
    skip
    return some name
  | _ => return none

/-- The name of a tag. -/
def tag? : NodeReader (Option (List Char)) := do
  match ← peek with
  | .tag t =>
    skip
    match t.handle with
    | none => return some t.suffix
    | some handle => match (← get).handles.lookup handle with
      | some lead => return some (lead ++ t.suffix)
      | none => fail
  | _ => return none

/-- The anchor and the tag of a node, in either order. -/
def properties : NodeReader (Option (List Char) × Option (List Char)) := do
  match ← anchor? with
  | some a => return (some a, ← tag?)
  | none =>
    let t ← tag?
    if t.isSome then return (← anchor?, t) else return (none, none)

/-- A number for a node, that of its anchor if it has one. -/
def number (anchor : Option (List Char)) : NodeReader Nat := do
  let id ← fresh
  match anchor with
  | some a =>
    if ((← get).anchors.lookup a).isSome then fail
    modify fun c => { c with anchors := (a, id) :: c.anchors }
  | none => pure ()
  return id

/-- The tag that leaves it to the text what a scalar is. -/
def open_ : List Char := ['!']

def collectionTag (tag : Option (List Char)) (kind : Tag) : Tag :=
  match tag with
  | none => kind
  | some name => if name = open_ then kind else .ofName name

def scalarTag (tag : Option (List Char)) (text : Points) (plain : Bool) : Tag :=
  match tag with
  | none => if plain then .ofPlain text.chars else .text
  | some name => if name = open_ then .ofPlain text.chars else .ofName name

mutual

/-- A node. `block` allows collections that are written by indentation, `indentless` a sequence at
the column of the mapping it is in. -/
def node (room : Room) (block indentless : Bool) : Nat → NodeReader Nat
  | 0 => fail
  | fuel + 1 => do
    match ← peek with
    | .repeated name =>
      skip
      match (← get).anchors.lookup name with
      | some id => return id
      | none => fail
    | _ =>
      let (anchor, tag) ← properties
      let sequence (items : NodeReader (List Nat)) : NodeReader Nat := do
        let id ← number anchor
        define id (.sequence (collectionTag tag .sequence) (← inside room items))
      let mapping (entries : NodeReader (List (Nat × Nat))) : NodeReader Nat := do
        let id ← number anchor
        define id (.mapping (collectionTag tag .mapping) (← inside room entries))
      let next ← peek
      match next with
      | .scalar text plain =>
        skip
        define (← number anchor) (.scalar (scalarTag tag text plain) text)
      | .flowSequenceStart =>
        skip
        sequence (flowItems room true fuel)
      | .flowMappingStart =>
        skip
        mapping (flowEntries room true fuel)
      | _ =>
        if next = .blockEntry ∧ indentless then sequence (indentlessItems room fuel)
        else if next = .blockSequenceStart ∧ block then
          skip
          sequence (blockItems room fuel)
        else if next = .blockMappingStart ∧ block then
          skip
          mapping (blockEntries room fuel)
        else if anchor.isSome ∨ tag.isSome then
          define (← number anchor) (.scalar (scalarTag tag [] true) [])
        else fail

def blockItems (room : Room) : Nat → NodeReader (List Nat)
  | 0 => fail
  | fuel + 1 => do
    if ← skip? .blockEntry then
      let item ← orEmpty [.blockEntry, .blockEnd] (node room true false fuel)
      return item :: (← blockItems room fuel)
    else if ← skip? .blockEnd then return []
    else fail

def indentlessItems (room : Room) : Nat → NodeReader (List Nat)
  | 0 => fail
  | fuel + 1 => do
    if ← skip? .blockEntry then
      let item ← orEmpty [.blockEntry, .key, .value, .blockEnd] (node room true false fuel)
      return item :: (← indentlessItems room fuel)
    else return []

def blockEntries (room : Room) : Nat → NodeReader (List (Nat × Nat))
  | 0 => fail
  | fuel + 1 => do
    if ← skip? .key then
      let key ← orEmpty [.key, .value, .blockEnd] (node room true true fuel)
      let value ← if ← skip? .value then orEmpty [.key, .value, .blockEnd] (node room true true fuel)
        else emptyScalar
      return (key, value) :: (← blockEntries room fuel)
    else if ← skip? .blockEnd then return []
    else fail

/-- The entry behind a key mark in brackets, which end with a token. -/
def flowEntry (room : Room) (ending : Token) : Nat → NodeReader (Nat × Nat)
  | 0 => fail
  | fuel + 1 => do
    let key ← orEmpty [.value, .flowEntry, ending] (node room false false fuel)
    let value ← if ← skip? .value then orEmpty [.flowEntry, ending] (node room false false fuel)
      else emptyScalar
    return (key, value)

def flowItems (room : Room) (first : Bool) : Nat → NodeReader (List Nat)
  | 0 => fail
  | fuel + 1 => do
    if ← skip? .flowSequenceEnd then return []
    if !first then
      if !(← skip? .flowEntry) then fail
    if ← skip? .key then
      let id ← fresh
      let entry ← inside room (flowEntry room .flowSequenceEnd fuel)
      let item ← define id (.mapping .mapping [entry])
      return item :: (← flowItems room false fuel)
    else if ← skip? .flowSequenceEnd then return []
    else
      let item ← node room false false fuel
      return item :: (← flowItems room false fuel)

def flowEntries (room : Room) (first : Bool) : Nat → NodeReader (List (Nat × Nat))
  | 0 => fail
  | fuel + 1 => do
    if ← skip? .flowMappingEnd then return []
    if !first then
      if !(← skip? .flowEntry) then fail
    if ← skip? .key then
      let entry ← flowEntry room .flowMappingEnd fuel
      return entry :: (← flowEntries room false fuel)
    else if ← skip? .flowMappingEnd then return []
    else
      let key ← node room false false fuel
      let value ← emptyScalar
      return (key, value) :: (← flowEntries room false fuel)

end

/-- What the handles stand for where nothing else is said. -/
def standardHandles : List (List Char × List Char) := [(['!'], ['!']), (['!', '!'], Tag.standard)]

/-- The directives in front of a document, `fuel` of them at most. -/
def directives (versioned : Bool) (handles : List (List Char × List Char)) : Nat → NodeReader Unit
  | 0 => fail
  | fuel + 1 => do
    match ← peek with
    | .version major =>
      if versioned ∨ major ≠ 1 then fail
      skip
      directives true handles fuel
    | .tagHandle handle lead =>
      if (handles.lookup handle).isSome then fail
      skip
      directives versioned ((handle, lead) :: handles) fuel
    | .directive =>
      skip
      directives versioned handles fuel
    | _ => modify fun c => { c with handles := handles ++ standardHandles }

/-- Skips the ends of documents, `fuel` of them at most. -/
def skipEnds : Nat → NodeReader Unit
  | 0 => return
  | fuel + 1 => do if ← skip? .documentEnd then skipEnds fuel

/-- Whether a document begins with a mark, or with directives in front of one. -/
def beginsDocument : Token → Bool
  | .version _ | .tagHandle .. | .directive | .documentStart => true
  | _ => false

/-- The node of a document that begins with a mark. -/
def markedNode (room : Room) (fuel : Nat) : NodeReader Nat := do
  directives false [] fuel
  if !(← skip? .documentStart) then fail
  let t ← peek
  if beginsDocument t ∨ t = .documentEnd ∨ t = .streamEnd then emptyScalar
  else node room true false fuel

/-- The node of the first document of a text, if there is one. -/
def firstNode? (room : Room) (fuel : Nat) : NodeReader (Option Nat) := do
  let t ← peek
  if t = .streamEnd then return none
  else if beginsDocument t then return some (← markedNode room fuel)
  else
    modify fun c => { c with handles := standardHandles }
    return some (← node room true false fuel)

/-- The only document of a text, if there is one. -/
def document? (room : Room) (fuel : Nat) : NodeReader (Option Nat) := do
  let root? ← firstNode? room fuel
  skipEnds fuel
  if (← peek) = .streamEnd then return root? else fail

end NodeReader

/-- The nodes that tokens describe, if they describe any, and the number of the outermost one. -/
def Graph.ofTokens (room : Room) (tokens : List Token) :
    Except NodeFault (Option (Graph × Nat)) :=
  match (NodeReader.document? room (4 * tokens.length + 8)).run ⟨tokens, [], [], #[], 0⟩ with
  | .ok root? r => .ok (root?.map fun root => (r.graph, root))
  | .error f _ => .error f

end MailMerge.Yaml
