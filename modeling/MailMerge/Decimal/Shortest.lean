/-!
# Shortest decimals

The decimal with the fewest digits that a binary floating-point number is the nearest one to, and
of these the one closest to the number. A number is `m * 2 ^ q`; the decimals that are read back as
it lie between the midpoints to its neighbours, which count as well when `m` is even.
-/

namespace MailMerge.Decimal

/-- A decimal `digits * 10 ^ exponent`. -/
structure Scaled where
  digits : Nat
  exponent : Int
deriving DecidableEq

/-- A positive fraction. -/
structure Ratio where
  num : Nat
  den : Nat

namespace Ratio

/-- `n * b ^ e` as a fraction. -/
def ofPower (n b : Nat) (e : Int) : Ratio :=
  if 0 ≤ e then ⟨n * b.pow e.toNat, 1⟩ else ⟨n, b.pow (-e).toNat⟩

def scale (r : Ratio) (b : Nat) (e : Int) : Ratio :=
  if 0 ≤ e then ⟨r.num * b.pow e.toNat, r.den⟩ else ⟨r.num, r.den * b.pow (-e).toNat⟩

def le (r s : Ratio) : Bool := r.num * s.den ≤ s.num * r.den

def lt (r s : Ratio) : Bool := r.num * s.den < s.num * r.den

end Ratio

/-- The number of decimal digits of `n`, at least one. -/
def digitCount (n : Nat) : Nat := (Nat.toDigits 10 n).length

/-- The number of places that `r` has to be moved to the left to be at least one. -/
def leadingZeros (r : Ratio) : Nat → Nat
  | 0 => 0
  | fuel + 1 => if r.den ≤ r.num then 0 else leadingZeros ⟨r.num * 10, r.den⟩ fuel + 1

/-- The power of ten of the first digit of `r`, which is at least `10 ^ -400`. -/
def magnitude (r : Ratio) : Int :=
  if r.den ≤ r.num then digitCount (r.num / r.den) - 1 else -(leadingZeros r 400)

/-- The decimals that are read back as one number: between two fractions, with or without these. -/
structure Interval where
  low : Ratio
  high : Ratio
  closed : Bool

namespace Interval

def contains (i : Interval) (r : Ratio) : Bool :=
  if i.closed then i.low.le r && r.le i.high else i.low.lt r && r.lt i.high

end Interval

/-- The decimals nearer to `m * 2 ^ q` than to any other number of 53 binary digits. Below a power
of two the next number is only half as far off. -/
def roundingInterval (m : Nat) (q : Int) : Interval :=
  let low := if m = 0x10000000000000 ∧ -1074 < q then 4 * m - 1 else 4 * m - 2
  ⟨.ofPower low 2 (q - 2), .ofPower (4 * m + 2) 2 (q - 2), m % 2 = 0⟩

/-- The multiple of `10 ^ e` in the interval that is nearest to `r`, if there is one. Of two that
are equally near the even one is taken. -/
def onGrid? (i : Interval) (r : Ratio) (e : Int) : Option Scaled :=
  let s := r.scale 10 (-e)
  let below := s.num / s.den
  let rest := s.num % s.den
  let isIn (n : Nat) : Bool := i.contains (.ofPower n 10 e)
  match isIn below && 0 < below, isIn (below + 1) with
  | true, true =>
    if 2 * rest < s.den ∨ (2 * rest = s.den ∧ below % 2 = 0) then some ⟨below, e⟩
    else some ⟨below + 1, e⟩
  | true, false => some ⟨below, e⟩
  | false, true => some ⟨below + 1, e⟩
  | false, false => none

/-- The decimal without zeros at its end. -/
def Scaled.strip (d : Scaled) : Nat → Scaled
  | 0 => d
  | fuel + 1 =>
    if d.digits % 10 = 0 ∧ d.digits ≠ 0 then strip ⟨d.digits / 10, d.exponent + 1⟩ fuel else d

/-- The shortest decimal of the positive number `m * 2 ^ q`. Seventeen digits always suffice. -/
def shortest (m : Nat) (q : Int) : Scaled :=
  let r := Ratio.ofPower m 2 q
  let i := roundingInterval m q
  let top := magnitude r
  let hit := (List.range 17).findSome? fun (n : Nat) => onGrid? i r (top - n)
  (hit.getD ⟨r.num / r.den, 0⟩).strip 20

end MailMerge.Decimal
