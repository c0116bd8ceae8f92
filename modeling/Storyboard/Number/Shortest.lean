import Storyboard.Number.Binary64

/-!
# Shortest decimal texts of doubles

The decimal text of a double uses the fewest digits that read back as the same double and, among
those, the digits nearest to its value. The search looks at the two neighbours of the value on each
decimal grid, coarsest grid first. How the digits are laid out is a separate, declared choice.
-/

namespace Storyboard

/-- Decimal digits with a scale: the value `digits * 10 ^ power`. -/
structure Decimal where
  /-- All significant digits, read as one natural number. -/
  digits : Nat
  /-- The power of ten of the last digit. -/
  power : Int
deriving DecidableEq, Repr

namespace Decimal

/-- The digits as text. -/
def text (d : Decimal) : List Char := Nat.toDigits 10 d.digits

/-- How far the decimal point stands to the right of the first digit's left edge. -/
def pointPosition (d : Decimal) : Int := d.text.length + d.power

/-- Drop trailing zeros of the digits, at most `fuel` of them. -/
def trim : Nat → Decimal → Decimal
  | 0, d => d
  | fuel + 1, d =>
    if d.digits != 0 && d.digits % 10 == 0 then trim fuel ⟨d.digits / 10, d.power + 1⟩ else d

end Decimal

namespace Binary64

/-- The reals that round to a given positive double lie between `low` and `high`, all three numbers
taken over one denominator. -/
structure Neighbourhood where
  /-- The value itself. -/
  value : Nat
  /-- Halfway to the double below. -/
  low : Nat
  /-- Halfway to the double above. -/
  high : Nat
  /-- The common denominator. -/
  den : Nat
  /-- Whether the end points themselves round to the value. -/
  closed : Bool

/-- The neighbourhood of a finite nonzero magnitude. -/
def neighbourhood (x : Binary64) : Neighbourhood :=
  let m := x.significand
  let up := Nat.pow 2 x.exponent.toNat
  let below := if m == hiddenBit && decide (x.exponent > -1074) then 1 else 2
  { value := 4 * m * up, low := (4 * m - below) * up, high := (4 * m + 2) * up,
    den := 4 * x.denominator, closed := m % 2 == 0 }

/-- Whether `num / den` rounds to the double of the neighbourhood. -/
def Neighbourhood.admits (n : Neighbourhood) (num den : Nat) : Bool :=
  let point := num * n.den
  let lower := n.low * den
  let upper := n.high * den
  if n.closed then decide (lower ≤ point ∧ point ≤ upper)
  else decide (lower < point ∧ point < upper)

/-- The best decimal on the grid of `10 ^ power`, if one of the value's two neighbours is admitted. -/
def Neighbourhood.onGrid (n : Neighbourhood) (power : Int) : Option Decimal :=
  let up := Nat.pow 10 power.toNat
  let down := Nat.pow 10 (-power).toNat
  let floor := n.value * down / (n.den * up)
  let rest := 2 * (n.value * down % (n.den * up))
  let lowerFits := n.admits (floor * up) down
  let upperFits := n.admits ((floor + 1) * up) down
  match lowerFits, upperFits with
  | true, true =>
    let lowerWins := rest < n.den * up || (rest == n.den * up && floor % 2 == 0)
    some ⟨if lowerWins then floor else floor + 1, power⟩
  | true, false => some ⟨floor, power⟩
  | false, true => some ⟨floor + 1, power⟩
  | false, false => none

/-- The first grid that holds a decimal, going down from `10 ^ power`. -/
def Neighbourhood.search (n : Neighbourhood) : Nat → Int → Decimal
  | 0, power => ⟨n.value, power⟩
  | fuel + 1, power =>
    match n.onGrid power with
    | some d => if d.digits == 0 then n.search fuel (power - 1) else d.trim 20
    | none => n.search fuel (power - 1)

/-- The shortest decimal that reads back as the magnitude of a finite number. -/
def shortest (x : Binary64) : Decimal :=
  if x.isZero then ⟨0, 0⟩
  else
    let n := x.neighbourhood
    let top : Int := (Nat.log2 n.value : Int) - Nat.log2 n.den
    n.search 40 (top * 30103 / 100000 + 2)

end Binary64

/-- Where positional notation ends and how an exponent is spelled. -/
structure RealLayout where
  /-- Positional notation is used while the decimal point stands strictly above this position. -/
  pointAbove : Int
  /-- Positional notation is used while the decimal point stands at most at this position. -/
  pointUpTo : Int
  /-- Whether an integral value in positional notation ends in `.0`. -/
  keepsPoint : Bool
  /-- Whether a positive exponent carries its sign. -/
  signsExponent : Bool

namespace Decimal

/-- Digits with a decimal point at the given position, padded with zeros on either side. -/
def positional (layout : RealLayout) (d : Decimal) : List Char :=
  let digits := d.text
  let point := d.pointPosition
  if point ≤ 0 then '0' :: '.' :: (List.replicate (-point).toNat '0' ++ digits)
  else if 0 ≤ d.power then
    digits ++ List.replicate d.power.toNat '0' ++ (if layout.keepsPoint then ['.', '0'] else [])
  else digits.take point.toNat ++ '.' :: digits.drop point.toNat

/-- One digit before the point, then an exponent. -/
def scientific (layout : RealLayout) (d : Decimal) : List Char :=
  let exponent := d.pointPosition - 1
  let mark := if exponent < 0 then ['-'] else if layout.signsExponent then ['+'] else []
  let fraction := match d.text with
    | [] => []
    | [one] => [one]
    | first :: rest => first :: '.' :: rest
  fraction ++ 'e' :: (mark ++ Nat.toDigits 10 exponent.natAbs)

/-- The text of a decimal under a layout. -/
def layOut (layout : RealLayout) (d : Decimal) : List Char :=
  let point := d.pointPosition
  if d.digits == 0 || (layout.pointAbove < point && point ≤ layout.pointUpTo) then
    d.positional layout
  else d.scientific layout

end Decimal

/-- The text of a finite double under a layout, with its sign. -/
def Binary64.layOut (layout : RealLayout) (x : Binary64) : String :=
  String.ofList ((if x.isNegative then ['-'] else []) ++ x.shortest.layOut layout)

end Storyboard
