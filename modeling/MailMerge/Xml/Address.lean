/-!
# Addresses

The addresses that name namespaces. An address is absolute, which it is with a scheme in front, or
relative. A percent sign stands for a byte with the two hexadecimal digits behind it; it can stand
wherever a run of characters can.
-/

namespace MailMerge.Xml.Address

def isLetter (c : Char) : Bool := ('a' ≤ c && c ≤ 'z') || ('A' ≤ c && c ≤ 'Z')

def isDigit (c : Char) : Bool := '0' ≤ c && c ≤ '9'

def isHexadecimal (c : Char) : Bool :=
  isDigit c || ('a' ≤ c && c ≤ 'f') || ('A' ≤ c && c ≤ 'F')

def isHostChar (c : Char) : Bool :=
  isLetter c || isDigit c || "-._~!$&'()*+,;=".toList.contains c

def isSegmentChar (c : Char) : Bool := isHostChar c || c = ':' || c = '@'

def isPathChar (c : Char) : Bool := isSegmentChar c || c = '/'

def isQueryChar (c : Char) : Bool := isPathChar c || c = '?'

def isFragmentChar (c : Char) : Bool := isQueryChar c || c = '[' || c = ']'

/-- What follows a run of characters of a class. -/
def dropRun (p : Char → Bool) : List Char → List Char
  | '%' :: a :: b :: rest =>
    if isHexadecimal a && isHexadecimal b then dropRun p rest else '%' :: a :: b :: rest
  | c :: rest => if p c then dropRun p rest else c :: rest
  | [] => []

/-- What follows the number behind a colon, which has to be there and to be below `2 ^ 31`. -/
def dropPort? : List Char → Option (List Char)
  | ':' :: rest =>
    let digits := rest.takeWhile isDigit
    let port := digits.foldl (fun n c => n * 10 + (c.toNat - '0'.toNat)) 0
    if digits = [] ∨ 0x80000000 ≤ port then none else some (rest.dropWhile isDigit)
  | rest => some rest

/-- What follows the name of a host, in which brackets can hold anything. -/
def dropHost? : List Char → Option (List Char)
  | '[' :: rest =>
    match rest.dropWhile (· ≠ ']') with
    | ']' :: rest => some rest
    | _ => none
  | rest => some (dropRun isHostChar rest)

/-- What follows an authority: a user, a host and a port. -/
def dropAuthority? (cs : List Char) : Option (List Char) :=
  let host := match dropRun (fun c => isHostChar c || c = ':') cs with
    | '@' :: rest => rest
    | _ => cs
  (dropHost? host).bind dropPort?

/-- What follows a path that has to begin with a slash if there is one. -/
def dropRooted : List Char → List Char
  | '/' :: rest => dropRun isPathChar ('/' :: rest)
  | rest => rest

/-- What follows an authority and a path, the first part of which is a run of characters that have
a property. -/
def dropPlace? (p : Char → Bool) : List Char → Option (List Char)
  | '/' :: '/' :: rest => (dropAuthority? rest).map dropRooted
  | rest => some (dropRooted (dropRun p rest))

/-- Whether a text is nothing but a query and a fragment, which can both be missing. -/
def isTail (cs : List Char) : Bool :=
  let rest := match cs with
    | '?' :: rest => dropRun isQueryChar rest
    | rest => rest
  match rest with
  | '#' :: rest => dropRun isFragmentChar rest = []
  | rest => rest = []

/-- What follows a scheme and its colon. -/
def dropScheme? : List Char → Option (List Char)
  | c :: rest =>
    let name (c : Char) : Bool := isLetter c || isDigit c || c = '+' || c = '-' || c = '.'
    match isLetter c, rest.dropWhile name with
    | true, ':' :: rest => some rest
    | _, _ => none
  | [] => none

def isAbsolute (cs : List Char) : Bool :=
  ((dropScheme? cs).bind (dropPlace? isSegmentChar)).any isTail

/-- Whether a text is an address without a scheme. Its first part has no colon, so that it cannot
be taken for a scheme. -/
def isRelative (cs : List Char) : Bool :=
  (dropPlace? (fun c => isSegmentChar c && c ≠ ':') cs).any isTail

end MailMerge.Xml.Address
