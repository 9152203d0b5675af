import MailMerge.Yaml.Assembly

/-!
# Values of texts

The value of a text is put together from what its nodes become. A list or mapping inside of itself
stands for the value that is not finished yet.
-/

namespace MailMerge.Yaml

/-- What becomes of a value: it is the whole of a file, or an item of a list that is; its text has a
line for each item of a list; or it is shown in a text. -/
inductive Role where
  | whole
  | item
  | lines
  | shown
deriving DecidableEq

/-- What is known where a node stands: the role of its value, and the numbers of the nodes that it
is inside of. A mapping of lines is shown, and so nothing outside of it counts. -/
structure Around where
  role : Role
  inside : List Nat

namespace Around

/-- What is known inside of a list. -/
def inList (a : Around) (id : Nat) : Around :=
  ⟨if a.role = .whole then .item else a.role, id :: a.inside⟩

/-- What is known inside of a mapping. -/
def inMapping (a : Around) (id : Nat) : Around :=
  match a.role with
  | .whole | .item => ⟨.lines, []⟩
  | .lines => ⟨.shown, [id]⟩
  | .shown => a.inList id

end Around

/-- The value of a node. -/
def value (parts : Array (Option Part)) (a : Around) : Nat → Nat → Value
  | 0, _ => .null
  | fuel + 1, id =>
    let inList := value parts (a.inList id) fuel
    let inMapping := value parts (a.inMapping id) fuel
    let inside := a.inside.contains id
    match parts[id]?.join with
    | none => .null
    | some (.single v) => v
    | some (.list items) => if inside then .again true else .list (items.map inList)
    | some (.pairs items) =>
      if inside then .again true
      else .list (items.map fun (k, v) => .tuple [inList k, inList v])
    | some (.mapping entries) =>
      if inside then .again false else .mapping (entries.map fun (k, v) => (k, inMapping v))
    | some (.set keys) => .set keys

/-- The value of a text; null, if it has no document. No node is inside of itself more than once for
each role, which bounds how far in a node can be. -/
def load (room : Room) (cs : List Char) : Except Problem Value :=
  match Graph.ofTokens room (Token.ofText cs) with
  | .error (.text .malformed) => .error .malformed
  | .error (.text .noCharacter) => .error (.node .noCharacter)
  | .error (.text (.longInteger digits)) => bad (.longInteger digits)
  | .error .tooDeep => .error (.node .nodesTooDeep)
  | .ok none => .ok .null
  | .ok (some (graph, root)) =>
    (graph.parts room root).map fun parts => value parts ⟨.whole, []⟩ (4 * graph.size + 4) root

end MailMerge.Yaml
