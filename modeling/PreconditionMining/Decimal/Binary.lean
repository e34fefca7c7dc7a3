/-
# Binary floating-point numbers

A number of 64 bits has a sign, an exponent of 11 bits and a fraction of 52 bits.
Its magnitude is `mantissa * 2 ^ exponent` with whole numbers, where the fraction
has a leading one unless the exponent bits are all zero.  With all exponent bits
set it is infinite or no number.
-/

namespace PreconditionMining

/-- What the bits of a floating-point number mean. -/
inductive Binary
  | notANumber
  | infinite (negative : Bool)
  | finite (negative : Bool) (mantissa : Nat) (exponent : Int)
deriving DecidableEq

namespace Binary

/-- The meaning of 64 bits. -/
def ofBits (bits : Nat) : Binary :=
  let negative := bits / Nat.pow 2 63 % 2 = 1
  let exponent : Nat := bits / Nat.pow 2 52 % Nat.pow 2 11
  let fraction : Nat := bits % Nat.pow 2 52
  if exponent = Nat.pow 2 11 - 1 then
    if fraction = 0 then .infinite negative else .notANumber
  else if exponent = 0 then .finite negative fraction (-1074)
  else .finite negative (Nat.pow 2 52 + fraction) ((exponent : Int) - 1075)

/-- The meaning of a floating-point number. -/
def ofFloat (x : Float) : Binary := ofBits x.toBits.toNat

end Binary

/-- A quotient of natural numbers, not reduced. -/
structure Ratio where
  num : Nat
  den : Nat

namespace Ratio

/-- The quotient `n * b ^ e`. -/
def scaled (n b : Nat) (e : Int) : Ratio :=
  if 0 ≤ e then ⟨n * b.pow e.toNat, 1⟩ else ⟨n, b.pow (-e).toNat⟩

/-- Whether a quotient is smaller than another one. -/
def lt (x y : Ratio) : Bool := x.num * y.den < y.num * x.den

/-- Whether a quotient is at most another one. -/
def le (x y : Ratio) : Bool := x.num * y.den ≤ y.num * x.den

/-- The product with a quotient. -/
def mul (x y : Ratio) : Ratio := ⟨x.num * y.num, x.den * y.den⟩

end Ratio

/-- A quotient rounded to the nearest whole number; a half goes to the even neighbour. -/
def roundHalfEven (x : Ratio) : Nat :=
  let down := x.num / x.den
  let rest := x.num % x.den
  if 2 * rest < x.den then down
  else if x.den < 2 * rest then down + 1
  else if down % 2 = 0 then down else down + 1

end PreconditionMining
