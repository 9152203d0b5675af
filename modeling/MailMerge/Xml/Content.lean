/-!
# XML content

The content of an element: characters, comments and processing instructions, and elements. Content
is a sequence of trees, and all that is said about trees is said about sequences of them, so one
recursion goes into an element (`inner`) and on behind it (`rest`).

Each element has a number. An element keeps its number when the content around it changes, so the
number tells where an element has gone to, and whether it is still there.
-/

namespace MailMerge.Xml

/-- The name of an element or attribute: its namespace, empty for none, and its local part. -/
structure Name where
  space : String
  base : String
deriving DecidableEq

namespace Name

/-- The name as text, with its namespace in braces. -/
def text (n : Name) : String :=
  if n.space = "" then n.base else "\x7b" ++ n.space ++ "\x7d" ++ n.base

end Name

/-- An attribute, with the prefix its name was written with. -/
structure Attribute where
  name : Name
  lead : Option String
  value : String
deriving DecidableEq

/-- A namespace declaration: the prefix, none for the default one, and the namespace. -/
structure Declaration where
  lead : Option String
  space : String
deriving DecidableEq

/-- What the tags of an element say: its name, the prefix it was written with, its namespace
declarations and attributes. -/
structure Tag where
  id : Nat
  name : Name
  lead : Option String
  declarations : List Declaration
  attributes : List Attribute
deriving DecidableEq

namespace Tag

/-- The value of an attribute. -/
def attribute? (tag : Tag) (name : Name) : Option String :=
  (tag.attributes.find? fun a => a.name = name).map (·.value)

/-- Gives an attribute a value, in its place or behind the others. -/
def setAttribute (tag : Tag) (name : Name) (lead : Option String) (value : String) : Tag :=
  if tag.attributes.any fun a => a.name = name then
    { tag with
      attributes := tag.attributes.map fun a => if a.name = name then { a with value } else a }
  else { tag with attributes := tag.attributes ++ [⟨name, lead, value⟩] }

@[simp]
theorem setAttribute_id (tag : Tag) (name : Name) (lead : Option String) (value : String) :
    (tag.setAttribute name lead value).id = tag.id := by
  unfold setAttribute; split <;> rfl

@[simp]
theorem setAttribute_name (tag : Tag) (name : Name) (lead : Option String) (value : String) :
    (tag.setAttribute name lead value).name = tag.name := by
  unfold setAttribute; split <;> rfl

end Tag

/-- What is neither an element nor characters. -/
inductive Markup where
  | comment (data : String)
  | instruction (target : String) (data : Option String)
deriving DecidableEq

inductive Content where
  | nil
  | text (cs : List Char) (rest : Content)
  | markup (m : Markup) (rest : Content)
  | element (tag : Tag) (inner rest : Content)
deriving DecidableEq

/-- An element on its own. -/
structure Element where
  tag : Tag
  inner : Content
deriving DecidableEq

/-- One item of content. -/
inductive Node where
  | text (cs : List Char)
  | markup (m : Markup)
  | element (e : Element)

namespace Content

def cons : Node → Content → Content
  | .text cs, rest => .text cs rest
  | .markup m, rest => .markup m rest
  | .element e, rest => .element e.tag e.inner rest

def ofList (nodes : List Node) : Content := nodes.foldr cons .nil

def append : Content → Content → Content
  | nil, d => d
  | text cs rest, d => text cs (rest.append d)
  | markup m rest, d => markup m (rest.append d)
  | element tag inner rest, d => element tag inner (rest.append d)

instance : Append Content := ⟨append⟩

@[simp] theorem nil_append (d : Content) : nil ++ d = d := rfl

@[simp] theorem text_append (cs : List Char) (c d : Content) :
    text cs c ++ d = text cs (c ++ d) := rfl

@[simp] theorem markup_append (m : Markup) (c d : Content) :
    markup m c ++ d = markup m (c ++ d) := rfl

@[simp] theorem element_append (tag : Tag) (inner c d : Content) :
    element tag inner c ++ d = element tag inner (c ++ d) := rfl

@[simp]
theorem append_nil : ∀ c : Content, c ++ nil = c
  | nil => rfl
  | text _ rest => by simp [append_nil rest]
  | markup _ rest => by simp [append_nil rest]
  | element _ _ rest => by simp [append_nil rest]

/-! ## Looking at content -/

/-- All elements in document order: each one before those inside of it. -/
def elements : Content → List Element
  | nil => []
  | text _ rest => rest.elements
  | markup _ rest => rest.elements
  | element tag inner rest => ⟨tag, inner⟩ :: inner.elements ++ rest.elements

@[simp]
theorem elements_append (c d : Content) : (c ++ d).elements = c.elements ++ d.elements := by
  induction c with
  | nil => rfl
  | text _ _ ih => simpa [elements] using ih
  | markup _ _ ih => simpa [elements] using ih
  | element _ _ _ _ ih => simp [elements, ih]

/-- The numbers of all elements in document order. -/
def ids (c : Content) : List Nat := c.elements.map (·.tag.id)

@[simp]
theorem ids_append (c d : Content) : (c ++ d).ids = c.ids ++ d.ids := by simp [ids]

/-- The elements that are not inside of another one. -/
def children : Content → List Element
  | nil => []
  | text _ rest => rest.children
  | markup _ rest => rest.children
  | element tag inner rest => ⟨tag, inner⟩ :: rest.children

@[simp]
theorem children_append (c d : Content) : (c ++ d).children = c.children ++ d.children := by
  induction c with
  | nil => rfl
  | text _ _ ih => simpa [children] using ih
  | markup _ _ ih => simpa [children] using ih
  | element _ _ _ _ ih => simp [children, ih]

/-- The first child with a name. -/
def child? (c : Content) (name : Name) : Option Element :=
  c.children.find? fun e => e.tag.name = name

/-- The first grandchild with the second name in a child with the first one. -/
def grandchild? (c : Content) (outer inner : Name) : Option Element :=
  (c.children.filter fun e => e.tag.name = outer).findSome? fun e => e.inner.child? inner

/-- All elements with a name, in document order. -/
def named (c : Content) (name : Name) : List Element :=
  c.elements.filter fun e => e.tag.name = name

/-- The characters in front of all else. -/
def leadingText : Content → List Char
  | text cs rest => cs ++ rest.leadingText
  | _ => []

/-- What follows the characters in front. -/
def dropText : Content → Content
  | text _ rest => rest.dropText
  | c => c

/-- An element and the elements around it, the innermost first. -/
structure Place where
  element : Element
  around : List Element

/-- The place of the element with a number. -/
def place? (id : Nat) : Content → Option Place
  | nil => none
  | text _ rest => rest.place? id
  | markup _ rest => rest.place? id
  | element tag inner rest =>
    if tag.id = id then some ⟨⟨tag, inner⟩, []⟩
    else match inner.place? id with
      | some p => some { p with around := p.around ++ [⟨tag, inner⟩] }
      | none => rest.place? id

/-! ## Changing content -/

/-- Changes the element with a number. -/
def update (id : Nat) (f : Element → Element) : Content → Content
  | nil => nil
  | text cs rest => text cs (rest.update id f)
  | markup m rest => markup m (rest.update id f)
  | element tag inner rest =>
    if tag.id = id then
      let e := f ⟨tag, inner⟩
      element e.tag e.inner (rest.update id f)
    else element tag (inner.update id f) (rest.update id f)

/-- Puts content in the place of the element with a number and the characters behind it. -/
def replace (c : Content) (id : Nat) (new : Content) : Content :=
  match c with
  | nil => nil
  | text cs rest => text cs (rest.replace id new)
  | markup m rest => markup m (rest.replace id new)
  | element tag inner rest =>
    if tag.id = id then new ++ rest.dropText
    else element tag (inner.replace id new) (rest.replace id new)

/-- Takes the element with a number away, and the characters behind it. -/
def erase (c : Content) (id : Nat) : Content := c.replace id nil

/-- Puts an element behind the characters in front. -/
def insertBehindText (new : Element) : Content → Content
  | text cs rest => text cs (rest.insertBehindText new)
  | c => element new.tag new.inner c

/-- Puts an element behind the one with a number and the characters behind it. -/
def insertAfter (id : Nat) (new : Element) : Content → Content
  | nil => nil
  | text cs rest => text cs (rest.insertAfter id new)
  | markup m rest => markup m (rest.insertAfter id new)
  | element tag inner rest =>
    if tag.id = id then element tag inner (rest.insertBehindText new)
    else element tag (inner.insertAfter id new) (rest.insertAfter id new)

/-- The outermost elements the numbers of which are not among `kept`, each as content. -/
def lost (kept : List Nat) : Content → Content
  | nil => nil
  | text _ rest => rest.lost kept
  | markup _ rest => rest.lost kept
  | element tag inner rest =>
    if tag.id ∈ kept then inner.lost kept ++ rest.lost kept
    else element tag inner (rest.lost kept)

/-- Numbers the elements anew in document order from `next` on, and gives the next free number. -/
def renumber (next : Nat) : Content → Content × Nat
  | nil => (nil, next)
  | text cs rest =>
    let (rest, next) := rest.renumber next
    (text cs rest, next)
  | markup m rest =>
    let (rest, next) := rest.renumber next
    (markup m rest, next)
  | element tag inner rest =>
    let (inner, after) := inner.renumber (next + 1)
    let (rest, after) := rest.renumber after
    (element { tag with id := next } inner rest, after)

end Content

/-- Numbers an element and those inside of it anew, and gives the next free number. -/
def Element.renumber (e : Element) (next : Nat) : Element × Nat :=
  let (inner, after) := e.inner.renumber (next + 1)
  (⟨{ e.tag with id := next }, inner⟩, after)

end MailMerge.Xml
