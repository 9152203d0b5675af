import MailMerge.Xml.Scope

/-!
# Forests

The trees that work is done on at one time. `attached` has the roots of all documents, one after
another, `detached` what has been taken out of them: such an element can still be looked at and
changed, but nothing leads back from it. The numbers below `next` are taken. Elements that are read
together have numbers in one piece, which begins with that of their root.
-/

namespace MailMerge.Xml

/-- `made` counts the prefixes that have been made up in a document, by the number of its root. -/
structure Forest where
  attached : Content
  detached : Content
  next : Nat
  made : List (Nat × Nat)

namespace Forest

def empty : Forest := ⟨.nil, .nil, 0, []⟩

/-- Adds the root of a document, whose elements have numbers from `f.next` up to `next`. -/
def plant (f : Forest) (root : Element) (next : Nat) : Forest :=
  { f with attached := f.attached ++ .element root.tag root.inner .nil, next }

/-- Where an element is. -/
def place? (f : Forest) (id : Nat) : Option Content.Place :=
  match f.attached.place? id with
  | some p => some p
  | none => f.detached.place? id

def element? (f : Forest) (id : Nat) : Option Element := (f.place? id).map (·.element)

/-- Whether an element is the root of a document. -/
def isRoot (f : Forest) (id : Nat) : Bool := f.attached.children.any fun e => e.tag.id = id

/-- The number of the root that an element has been read with. -/
def origin (f : Forest) (id : Nat) : Nat :=
  ((f.attached.children.map (·.tag.id)).filter (· ≤ id)).foldl max 0

def madeFor (f : Forest) (root : Nat) : Nat := (f.made.lookup root).getD 0

def setMade (f : Forest) (root made : Nat) : Forest :=
  { f with made := (root, made) :: f.made.filter (·.1 ≠ root) }

/-- Changes an element where it is. What its content has lost is kept among the detached trees. -/
def update (f : Forest) (id : Nat) (g : Element → Element) : Forest :=
  let lost := match f.element? id with
    | some e => e.inner.lost (g e).inner.ids
    | none => .nil
  { f with attached := f.attached.update id g, detached := f.detached.update id g ++ lost }

/-- Takes an element out of the one around it. -/
def detach (f : Forest) (id : Nat) : Forest :=
  match f.element? id with
  | some e =>
    { f with
      attached := f.attached.erase id
      detached := f.detached.erase id ++ .element e.tag e.inner .nil }
  | none => f

/-- Puts an element behind another one and the characters behind that. -/
def insertAfter (f : Forest) (id : Nat) (new : Element) : Forest :=
  { f with attached := f.attached.insertAfter id new, detached := f.detached.insertAfter id new }

end Forest

end MailMerge.Xml
