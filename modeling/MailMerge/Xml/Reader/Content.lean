import MailMerge.Xml.Reader.Tag

/-!
# Reading content

The content of a document is read from left to right, with the elements that have begun kept on a
stack. An entity is read in place of its reference, and has to be content of its own.
-/

namespace MailMerge.Xml.Reader

/-- An element that has begun: its name as written, its tag, the scope inside of it, and what has
been read of its content, the last item first. -/
structure Open where
  written : String
  tag : Tag
  scope : Scope
  done : List Node

/-- Content that is being read: the elements that have begun, the innermost first, and the items
outside of all of them. -/
structure Growing where
  opened : List Open
  outside : List Node

namespace Growing

def start : Growing := ⟨[], []⟩

def add (g : Growing) (node : Node) : Growing :=
  match g.opened with
  | [] => { g with outside := node :: g.outside }
  | o :: rest => { g with opened := { o with done := node :: o.done } :: rest }

/-- Adds characters to those before them. -/
def addText (g : Growing) (cs : List Char) : Growing :=
  let join (done : List Node) : List Node :=
    match done with
    | .text before :: more => .text (before ++ cs) :: more
    | done => .text cs :: done
  match g.opened with
  | [] => { g with outside := join g.outside }
  | o :: rest => { g with opened := { o with done := join o.done } :: rest }

def addContent (g : Growing) : Content → Growing
  | .nil => g
  | .text cs rest => (g.addText cs).addContent rest
  | .markup m rest => (g.add (.markup m)).addContent rest
  | .element tag inner rest => (g.add (.element ⟨tag, inner⟩)).addContent rest

/-- The scope at the end. No declarations around the content count. -/
def scope (g : Growing) : Scope :=
  match g.opened with
  | [] => []
  | o :: _ => o.scope

end Growing

/-- The text with line feeds alone at the ends of lines. -/
def lineFeeds : List Char → List Char
  | [] => []
  | '\r' :: '\n' :: rest => '\n' :: lineFeeds rest
  | '\r' :: rest => '\n' :: lineFeeds rest
  | c :: rest => c :: lineFeeds rest

/-- Characters up to the next markup. The end of a `CDATA` section cannot stand among them. -/
def characters : Read (List Char) := do
  let cs ← takeWhile fun c => c ≠ '<' && c ≠ '&'
  if (breakAt "]]>".toList cs).isSome || !cs.all isXmlChar then malformed
  return cs

/-- Reads the text of an entity as content, once. Nothing around a reference counts in it. -/
def expand (entity : String) (text : List Char) (read : Read Growing) : Read Content := do
  let s ← get
  set { s with size := byteSize text, grown := 0, within := s.within + 1 }
  let g ← reading (lineFeeds text) read
  let content := Content.ofList g.outside.reverse
  modify fun inner =>
    let expansion : Expansion := ⟨entity, content, inner.grown + byteSize text⟩
    { inner with
      size := s.size
      grown := s.grown
      within := s.within
      expansions := expansion :: inner.expansions }
  return content

/-- The content that an entity has been expanded to before. -/
def expanded? (entity : String) : Read (Option Content) :=
  return ((← get).expansions.find? fun e => e.entity = entity).map (·.content)

/-- Counts what the content of an entity adds to the text. -/
def growBy (entity : String) : Read Unit := do
  match (← get).expansions.find? fun e => e.entity = entity with
  | some e => grow e.cost
  | none => return ()

/-- Reads the rest of content up to the end of the text, or, with `single`, up to the end of the
first element. `depth` is the number of elements around it, with one more for each entity. `entity?`
reads the text of an entity at a depth, where entities may stand; `levels` says how many may stand
inside each other. -/
def contentRest (levels : Nat) (entity? : Option (List Char → Nat → Read Growing)) (depth : Nat)
    (single : Bool) (fuel : Nat) (g : Growing) : Read Growing :=
  match fuel with
  | 0 => malformed
  | fuel + 1 => do
    let s ← get
    match s.rest with
    | [] => if g.opened.isEmpty && !single then return g else malformed
    | '<' :: '/' :: rest =>
      set { s with rest }
      match g.opened with
      | [] => malformed
      | o :: opened =>
        let written ← anyName
        let _ ← space
        expect ">"
        if written ≠ o.written then malformed
        let element : Node := .element ⟨o.tag, .ofList o.done.reverse⟩
        let g := { g with opened }.add element
        if single && opened.isEmpty then return g
        else contentRest levels entity? depth single fuel g
    | '<' :: '!' :: '-' :: '-' :: rest =>
      set { s with rest }
      let c ← comment
      contentRest levels entity? depth single fuel (g.add (.markup c))
    | '<' :: '!' :: '[' :: 'C' :: 'D' :: 'A' :: 'T' :: 'A' :: '[' :: rest =>
      set { s with rest }
      let cs ← upTo "]]>"
      if !cs.all isXmlChar then malformed
      contentRest levels entity? depth single fuel (g.addText cs)
    | '<' :: '?' :: rest =>
      set { s with rest }
      let i ← instruction
      contentRest levels entity? depth single fuel (g.add (.markup i))
    | '<' :: rest =>
      set { s with rest }
      if maxDepth ≤ depth + g.opened.length then malformed
      let (written, tag, scope, isEmpty) ← startTag levels g.scope
      if isEmpty then
        let g := g.add (.element ⟨tag, .nil⟩)
        if single && g.opened.isEmpty then return g
        else contentRest levels entity? depth single fuel g
      else
        let opened := ⟨written, tag, scope, []⟩ :: g.opened
        contentRest levels entity? depth single fuel { g with opened }
    | '&' :: '#' :: rest =>
      set { s with rest }
      let c ← numbered
      contentRest levels entity? depth single fuel (g.addText [c])
    | '&' :: rest =>
      set { s with rest }
      let name ← reference
      match predefined? name with
      | some c => contentRest levels entity? depth single fuel (g.addText [c])
      | none =>
        match ← entityText? name with
        | none => contentRest levels entity? depth single fuel g
        | some text =>
          match ← expanded? name with
          | some found =>
            growBy name
            contentRest levels entity? depth single fuel (g.addContent found)
          | none =>
            match entity? with
            | none => malformed
            | some entity =>
              let around := depth + g.opened.length + 1
              if maxDepth < around then malformed
              let found ← expand name text (entity text around)
              growBy name
              contentRest levels entity? depth single fuel (g.addContent found)
    | _ =>
      let cs ← characters
      contentRest levels entity? depth single fuel (g.addText cs)

/-- Content up to the end of the text, or, with `single`, up to the end of the first element.
`depth` is the number of elements around it, with one more for each entity. -/
def content (levels fuel depth : Nat) (single : Bool) (g : Growing) : Read Growing :=
  match levels with
  | 0 => contentRest 0 none depth single fuel g
  | levels + 1 =>
    contentRest (levels + 1)
      (some fun text around => content levels (text.length + 1) around false .start) depth single fuel
      g

end MailMerge.Xml.Reader
