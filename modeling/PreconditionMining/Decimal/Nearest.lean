/-
# Nearest floating-point numbers

The floating-point number that is nearest to a quotient, of two that are equally
near the one with an even mantissa.  The mantissa has 53 digits in base two,
fewer for the smallest numbers; from half a unit above the largest number on the
nearest one is infinite.

A quotient is rounded once, from its exact value (`roundHalfEven`).
-/

import PreconditionMining.Decimal.Binary

namespace PreconditionMining
namespace Nearest

/-- The exponent of the unit in which a quotient is rounded. -/
def unit (x : Ratio) : Int :=
  let guess : Int := (x.num.log2 : Int) - x.den.log2
  let lead := if (Ratio.scaled 1 2 guess).le x then guess else guess - 1
  max (lead - 52) (-1074)

/-- The bits of an infinite number. -/
def infiniteBits : Nat := (Nat.pow 2 11 - 1) * Nat.pow 2 52

/-- The bits of the number nearest to a quotient.  A mantissa that is rounded up to the next
power of two has the bits of the next exponent. -/
def bits (x : Ratio) : Nat :=
  if x.num = 0 then 0
  else
    let e := unit x
    min ((e + 1074).toNat * Nat.pow 2 52 + roundHalfEven (x.mul (.scaled 1 2 (-e)))) infiniteBits

/-- The number nearest to a quotient with a sign. -/
def ofRatio (negative : Bool) (x : Ratio) : Float :=
  let magnitude := Float.ofBits (UInt64.ofNat (bits x))
  if negative then -magnitude else magnitude

/-- The number nearest to a natural number. -/
def ofNat (n : Nat) : Float := ofRatio false ⟨n, 1⟩

/-- The number nearest to a whole number. -/
def ofInt (n : Int) : Float := ofRatio (n < 0) ⟨n.natAbs, 1⟩

/-- How many decimal digits of the exponent of a decimal are looked at. -/
def reach : Int := 400

/-- The number nearest to `digits * 10 ^ exponent`.  Far beyond the reach of floating-point
numbers it is 0 or infinite. -/
def ofDecimal (negative : Bool) (digits : Nat) (exponent : Int) : Float :=
  let length : Int := (Nat.toDigits 10 digits).length
  if digits = 0 || length + exponent < -reach then ofRatio negative ⟨0, 1⟩
  else if reach < length + exponent then ofRatio negative (.scaled 1 10 reach)
  else ofRatio negative (.scaled digits 10 exponent)

example : bits ⟨1, 1⟩ = 0x3ff0000000000000 ∧ bits ⟨1, 10⟩ = 0x3fb999999999999a ∧
    bits ⟨2 ^ 53 + 1, 1⟩ = 0x4340000000000000 ∧ bits ⟨2 ^ 53 - 1, 2⟩ = 0x432fffffffffffff := by
  decide

/-- Half of the smallest number goes to 0, and what is above it to the smallest number. -/
example : bits (.scaled 1 2 (-1075)) = 0 ∧ bits (.scaled 3 2 (-1076)) = 1 ∧
    bits (.scaled 1 2 1024) = infiniteBits := by decide +kernel

end Nearest
end PreconditionMining
