import MailMerge.Yaml.Node
import MailMerge.Yaml.Scalar

/-!
# Assembly of values

What each node of a text becomes. Scalars get their values where a node around them is taken up, and
collections are taken up in the order in which they are met, those further out first: so what is
wrong further out is found first, and at one level what comes first.

The entries behind merge keys are put into a mapping when it is taken up, or when it is merged into
another one.
-/

namespace MailMerge.Yaml

/-- What has become of a node: a value, or a collection of nodes given by their numbers. -/
inductive Part where
  | single (v : Value)
  | list (items : List Nat)
  | pairs (items : List (Nat × Nat))
  | mapping (entries : List (Value × Nat))
  | set (keys : List Value)

/-- The nodes, what has become of them, and the collections that are not taken up yet. A node has an
empty list as long as it waits. -/
structure Assembly where
  graph : Graph
  parts : Array (Option Part)
  waiting : List Nat

abbrev Assembler := EStateM Problem Assembly

namespace Assembler

def fail {α : Type} : Assembler α := throw .malformed

def node (id : Nat) : Assembler Node := return (← get).graph.getD id .empty

def setNode (id : Nat) (n : Node) : Assembler Unit := modify fun a =>
  { a with graph := a.graph.setIfInBounds id n }

def part? (id : Nat) : Assembler (Option Part) := return ((← get).parts[id]?).join

def setPart (id : Nat) (p : Part) : Assembler Unit := modify fun a =>
  { a with parts := a.parts.setIfInBounds id (some p) }

def hasTag (tag : Tag) (id : Nat) : Assembler Bool := return (← node id).tag = tag

/-! ## Merge keys -/

def entries (id : Nat) : Assembler (List (Nat × Nat)) := do
  match ← node id with
  | .mapping _ entries => return entries
  | _ => fail

def setEntries (id : Nat) (entries : List (Nat × Nat)) : Assembler Unit := do
  setNode id (.mapping (← node id).tag entries)

/-- The entries in front of the first merge key. A value key among them becomes text. -/
def frontEntries : List (Nat × Nat) → Assembler (List (Nat × Nat))
  | [] => return []
  | (k, v) :: rest => do
    if ← hasTag .merge k then return []
    if ← hasTag .value k then setNode k ((← node k).withTag .text)
    return (k, v) :: (← frontEntries rest)

mutual

/-- Puts the entries behind the merge keys of a mapping, from the place `index` on, in front of its
own ones, together with those in `merged`. Each merge key is taken away before the entries behind it
are looked up, so a mapping can be merged into itself. The mapping is merged into others in `depth`
steps. -/
def flatten (room : Room) (depth id index : Nat) (merged : List (Nat × Nat)) :
    Nat → Assembler Unit
  | 0 => fail
  | fuel + 1 => do
    let own ← entries id
    let front ← frontEntries (own.drop index)
    let place := index + front.length
    match own[place]? with
    | some (_, v) =>
      setEntries id (own.eraseIdx place)
      let more ← mergedEntries room (depth + 1) fuel v
      flatten room depth id place (merged ++ more) fuel
    | none => if merged ≠ [] then setEntries id (merged ++ own)

/-- The entries of a mapping or of mappings in a sequence, the last one first. -/
def mergedEntries (room : Room) (depth fuel : Nat) (id : Nat) : Assembler (List (Nat × Nat)) :=
  match fuel with
  | 0 => fail
  | fuel + 1 => do
    let flat (id : Nat) : Assembler (List (Nat × Nat)) := do
      match ← node id with
      | .mapping .. =>
        if !room.merges depth id then throw (.node .nodesTooDeep)
        flatten room depth id 0 [] fuel
        entries id
      | _ => fail
    match ← node id with
    | .sequence _ items => return (← items.mapM flat).reverse.flatten
    | _ => flat id

end

/-! ## Parts -/

/-- The text of a node: that of a scalar, or of the value key of a mapping. The node is reached in
`depth` steps over value keys. -/
def text (room : Room) (depth id : Nat) : Nat → Assembler Points
  | 0 => throw (.node .nodesTooDeep)
  | fuel + 1 => do
    match ← node id with
    | .scalar _ ps => return ps
    | .mapping _ entries =>
      match ← entries.findM? fun e => hasTag .value e.1 with
      | some (_, v) =>
        if !room.values (depth + 1) v then throw (.node .nodesTooDeep)
        text room (depth + 1) v fuel
      | none => fail
    | .sequence .. => fail

/-- The value of a node that is no collection by its tag. -/
def singleValue (room : Room) (id : Nat) : Assembler Value := do
  let n ← node id
  let ps ← text room 0 id ((← get).graph.size + 1)
  if n.tag = .timestamp && n matches .mapping .. then throw (.node .timestampOfMapping)
  match scalar n.tag ps with
  | .ok v => return v
  | .error p => throw p

/-- Begins a node: it has a value, or has to wait. -/
def start (room : Room) (id : Nat) : Assembler Unit := do
  if (← part? id).isNone then
    let tag := (← node id).tag
    if tag.isCollection then
      setPart id (.list [])
      modify fun a => { a with waiting := a.waiting ++ [id] }
    else if tag.hasValue then setPart id (.single (← singleValue room id))
    else fail

/-- The value of a key, which cannot be a collection. -/
def key (room : Room) (id : Nat) : Assembler Value := do
  start room id
  match ← part? id with
  | some (.single v) => return v
  | _ => fail

/-- The entries of a mapping with the merged ones. An entry takes the place of another one with the
same key. -/
def mappingEntries (room : Room) (id : Nat) : Assembler (List (Value × Nat)) := do
  let size := (← get).graph.size
  match ← node id with
  | .mapping .. => flatten room 0 id 0 [] ((size + 2) * (size + 2))
  | _ => fail
  (← entries id).foldlM (fun acc (k, v) => do
    let name ← key room k
    start room v
    return Value.insertEntry name v acc) []

/-- The nodes in a sequence. -/
def items (id : Nat) : Assembler (List Nat) := do
  match ← node id with
  | .sequence _ items => return items
  | _ => fail

/-- The key and the value of a mapping with one entry. -/
def pair (room : Room) (id : Nat) : Assembler (Nat × Nat) := do
  match ← node id with
  | .mapping _ [(k, v)] =>
    start room k
    start room v
    return (k, v)
  | _ => fail

/-- Takes up a collection. -/
def takeUp (room : Room) (id : Nat) : Assembler Unit := do
  match (← node id).tag with
  | .sequence =>
    let items ← items id
    items.forM (start room)
    setPart id (.list items)
  | .orderedMap | .pairs => setPart id (.pairs (← (← items id).mapM (pair room)))
  | .mapping => setPart id (.mapping (← mappingEntries room id))
  | .set => setPart id (.set ((← mappingEntries room id).map (·.1)))
  | _ => fail

/-- Takes up the collections that wait, `fuel` of them at most. -/
def takeUpAll (room : Room) : Nat → Assembler Unit
  | 0 => return
  | fuel + 1 => do
    match (← get).waiting with
    | [] => return
    | id :: rest =>
      modify fun a => { a with waiting := rest }
      takeUp room id
      takeUpAll room fuel

end Assembler

/-- What the nodes of a text become that its outermost node needs. No node has to wait twice. -/
def Graph.parts (room : Room) (graph : Graph) (root : Nat) :
    Except Problem (Array (Option Part)) :=
  let all : Assembler Unit := do
    Assembler.start room root
    Assembler.takeUpAll room graph.size
  match all.run ⟨graph, Array.replicate graph.size none, []⟩ with
  | .ok _ a => .ok a.parts
  | .error p _ => .error p

end MailMerge.Yaml
