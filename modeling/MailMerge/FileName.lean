import MailMerge.Decimal.Number
import MailMerge.Text.LowerCase

/-!
# Names for new files

A name that is asked for is made safe to use, and numbered if it is taken. Names that differ only in
capital and small letters count as the same.
-/

namespace MailMerge.FileName

/-- A symbol that cannot be used in the names of files everywhere. -/
def isUnsafe (p : CodePoint) : Bool := p ∈ points "<>:\"/\\|?*".toList || p.toNat < 0x20

/-- Puts one underscore in the place of unsafe symbols that stand together. -/
def replaceUnsafe : Points → Points
  | [] => []
  | p :: rest =>
    if isUnsafe p then
      if rest.head?.any isUnsafe then replaceUnsafe rest else '_' :: replaceUnsafe rest
    else p :: replaceUnsafe rest

/-- A symbol that a name should neither begin nor end with. -/
def isTrimmed (p : CodePoint) : Bool := p = ' ' || p = '.'

/-- The name without unsafe symbols, and without blanks and dots around it. It may be empty. -/
def safe (name : Points) : Points :=
  (((replaceUnsafe name).dropWhile isTrimmed).reverse.dropWhile isTrimmed).reverse

/-- The name with a number, the first one being the name itself. -/
def numbered (stem : Points) (n : Nat) : Points :=
  if n ≤ 1 then stem else stem ++ points ('-' :: Decimal.natText n)

/-- The first free name from number `n` on, after `fuel` that are taken. -/
def freeFrom (used : List Points) (stem : Points) (n : Nat) : Nat → Points
  | 0 => numbered stem n
  | fuel + 1 =>
    if Text.lower (numbered stem n) ∈ used then freeFrom used stem (n + 1) fuel
    else numbered stem n

/-- The first free name. As many names can be taken as there are used ones. -/
def free (used : List Points) (stem : Points) : Points := freeFrom used stem 1 used.length

/-- Chooses names one after another; `used` has those taken so far, in small letters. -/
def chooseAll (used : List Points) : List Points → List Points
  | [] => []
  | stem :: rest =>
    let name := free used stem
    name :: chooseAll (Text.lower name :: used) rest

end MailMerge.FileName
