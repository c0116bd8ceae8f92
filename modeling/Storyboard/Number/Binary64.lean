/-!
# Binary floating point numbers

A double is its 64 bits. Its value is read exactly, as a signed integer times a power of two, and a
quotient of natural numbers is rounded to the nearest double, ties to the even one. Every operation
here is exact integer arithmetic followed by one such rounding.
-/

namespace Storyboard

/-- A double precision number, held as its bit pattern. -/
structure Binary64 where
  /-- Sign, eleven exponent bits and fifty-two fraction bits. -/
  bits : UInt64
deriving DecidableEq, Repr, Inhabited

namespace Binary64

/-- Weight of the sign bit. -/
def signWeight : Nat := Nat.pow 2 63

/-- Weight of the lowest exponent bit, which is also the implicit leading bit of a normal number. -/
def hiddenBit : Nat := Nat.pow 2 52

/-- The bit pattern of positive infinity. -/
def infinityBits : Nat := 2047 * hiddenBit

/-- Whether the sign bit is set. -/
def isNegative (x : Binary64) : Bool := decide (signWeight ≤ x.bits.toNat)

/-- The bit pattern without its sign. -/
def magnitudeBits (x : Binary64) : Nat := x.bits.toNat % signWeight

/-- Whether the number is neither infinite nor undefined. -/
def isFinite (x : Binary64) : Bool := decide (x.magnitudeBits < infinityBits)

/-- Whether the number is a zero of either sign. -/
def isZero (x : Binary64) : Bool := x.magnitudeBits == 0

/-- A finite magnitude is `significand * 2 ^ exponent`. -/
def significand (x : Binary64) : Nat :=
  let fraction := x.magnitudeBits % hiddenBit
  if x.magnitudeBits < hiddenBit then fraction else hiddenBit + fraction

/-- The power of two that scales the significand. -/
def exponent (x : Binary64) : Int :=
  (max 1 (x.magnitudeBits / hiddenBit) : Nat) - 1075

/-- Numerator of the exact magnitude of a finite number. -/
def numerator (x : Binary64) : Nat := x.significand * Nat.pow 2 x.exponent.toNat

/-- Denominator of the exact magnitude of a finite number. -/
def denominator (x : Binary64) : Nat := Nat.pow 2 (-x.exponent).toNat

/-- Attach a sign to a magnitude pattern. -/
def ofMagnitudeBits (negative : Bool) (bits : Nat) : Binary64 :=
  ⟨UInt64.ofNat (if negative then signWeight + bits else bits)⟩

/-- The nearest integer to `num / den`, a half going to the even neighbour. -/
def roundQuotient (num den : Nat) : Nat :=
  let quotient := num / den
  let twice := 2 * (num % den)
  if twice < den then quotient
  else if den < twice then quotient + 1
  else quotient + quotient % 2

/-- `num / den` in units of `2 ^ scale`, as a quotient of natural numbers. -/
def scaledQuotient (num den : Nat) (scale : Int) : Nat × Nat :=
  (num * Nat.pow 2 (-scale).toNat, den * Nat.pow 2 scale.toNat)

/-- The double nearest to `num / den`, infinite when that is out of range. -/
def ofRatio (negative : Bool) (num den : Nat) : Binary64 :=
  if num == 0 then ofMagnitudeBits negative 0
  else
    let guess : Int := (Nat.log2 num : Int) - Nat.log2 den - 53
    let (top, bottom) := scaledQuotient num den guess
    let fitted := if top / bottom < 2 * hiddenBit then guess else guess + 1
    let scale := max fitted (-1074)
    let (top, bottom) := scaledQuotient num den scale
    let bits := (scale + 1074).toNat * hiddenBit + roundQuotient top bottom
    ofMagnitudeBits negative (min bits infinityBits)

/-- The double nearest to `digits * 10 ^ power`. Powers far outside the range are settled at once. -/
def ofDecimal (negative : Bool) (digits : Nat) (power : Int) : Binary64 :=
  let width : Int := Nat.log2 digits
  if digits == 0 then ofMagnitudeBits negative 0
  else if power > 400 then ofMagnitudeBits negative infinityBits
  else if power + width < -400 then ofMagnitudeBits negative 0
  else ofRatio negative (digits * Nat.pow 10 power.toNat) (Nat.pow 10 (-power).toNat)

/-- The double nearest to a natural number. -/
def ofNat (n : Nat) : Binary64 := ofRatio false n 1

/-- The rounded value of a number times a base plus a digit. -/
def pushDigit (base : Nat) (x : Binary64) (digit : Nat) : Binary64 :=
  if x.isFinite then ofRatio false (x.numerator * base + digit * x.denominator) x.denominator else x

/-- The number that digits write, rounded after each of them. -/
def ofDigits (base : Nat) (digits : List Nat) : Binary64 := digits.foldl (pushDigit base) (ofNat 0)

/-- The rounded product of two finite numbers. -/
def mul (x y : Binary64) : Binary64 :=
  ofRatio (x.isNegative != y.isNegative) (x.numerator * y.numerator) (x.denominator * y.denominator)

/-- The rounded quotient of a finite number by a nonzero finite number. -/
def div (x y : Binary64) : Binary64 :=
  ofRatio (x.isNegative != y.isNegative) (x.numerator * y.denominator) (x.denominator * y.numerator)

/-- The same magnitude with the opposite sign. -/
def neg (x : Binary64) : Binary64 := ofMagnitudeBits (!x.isNegative) x.magnitudeBits

/-- The integer value of a magnitude that has no fractional part. -/
def toNat? (x : Binary64) : Option Nat :=
  if x.isFinite && x.numerator % x.denominator == 0 then some (x.numerator / x.denominator) else none

end Binary64

end Storyboard
