/-
# Shortest decimals

The shortest decimal of a floating-point number has the fewest digits with which
it is read back as the same number; of two such decimals it is the nearer one.
The numbers that are read back form an interval around the value, which reaches
half way to each neighbour and has its ends when the mantissa is even.

For 1, 2, … 17 digits the two decimals next to the value are tried; seventeen
digits are always enough.
-/

import PreconditionMining.Decimal.Fixed

namespace PreconditionMining
namespace Shortest

/-- A decimal: `digits * 10 ^ exponent`. -/
structure Decimal where
  digits : Nat
  exponent : Int
deriving DecidableEq

/-- The decimal as a quotient. -/
def Decimal.value (d : Decimal) : Ratio := .scaled d.digits 10 d.exponent

/-- The decimal without zeros at the end of its digits, of which at most a number are taken. -/
def Decimal.trim : Nat → Decimal → Decimal
  | 0, d => d
  | n + 1, d =>
    if d.digits ≠ 0 ∧ d.digits % 10 = 0 then trim n ⟨d.digits / 10, d.exponent + 1⟩ else d

/-- The interval of the numbers that are read back as a given one. -/
structure Interval where
  low : Ratio
  high : Ratio
  closed : Bool

/-- Whether a decimal is read back as the number of the interval. -/
def Interval.contains (i : Interval) (d : Decimal) : Bool :=
  if i.closed then i.low.le d.value && d.value.le i.high
  else i.low.lt d.value && d.value.lt i.high

/-- The interval of `m * 2 ^ e`.  Below a power of two the numbers stand twice as close. -/
def interval (m : Nat) (e : Int) : Interval where
  low :=
    if m = Nat.pow 2 52 ∧ e ≠ -1074 then .scaled (4 * m - 1) 2 (e - 2)
    else .scaled (2 * m - 1) 2 (e - 1)
  high := .scaled (2 * m + 1) 2 (e - 1)
  closed := m % 2 = 0

/-- How many decimal places to the right a value below one lies, at most a number of them. -/
def placesBelowOne : Nat → Ratio → Nat
  | 0, _ => 0
  | n + 1, x => if x.den ≤ x.num then 0 else placesBelowOne n ⟨x.num * 10, x.den⟩ + 1

/-- The exponent of the first decimal digit of a positive value. -/
def leadingExponent (x : Ratio) : Int :=
  if x.den ≤ x.num then ((Nat.toDigits 10 (x.num / x.den)).length : Int) - 1
  else -(placesBelowOne 400 x : Int)

/-- The decimal with a number of digits that is read back, and nearest to the value. -/
def withDigits? (value : Ratio) (i : Interval) (lead : Int) (count : Nat) : Option Decimal :=
  let unit : Int := lead - count + 1
  let units := Ratio.mul value (.scaled 1 10 (-unit))
  let down : Decimal := ⟨units.num / units.den, unit⟩
  let up : Decimal := ⟨units.num / units.den + 1, unit⟩
  match i.contains down, i.contains up with
  | true, true => some ⟨roundHalfEven units, unit⟩
  | true, false => some down
  | false, true => some up
  | false, false => none

/-- The shortest decimal of `m * 2 ^ e`. -/
def ofBinary (m : Nat) (e : Int) : Decimal :=
  if m = 0 then ⟨0, 0⟩
  else
    let value := Ratio.scaled m 2 e
    let tries := (List.range 17).map (· + 1)
    ((tries.findSome? (withDigits? value (interval m e) (leadingExponent value))).getD ⟨0, 0⟩).trim
      17

/-- How a decimal is written: with a point among its digits while the exponent of its first
digit lies between these bounds, with a power of ten and its sign otherwise. -/
structure Style where
  smallest : Int
  largest : Int

/-- Numbers in data documents are written with a point from `1e-5` up to below `1e16`. -/
def documentStyle : Style := ⟨-5, 15⟩

/-- Writes a decimal. -/
def write (style : Style) (d : Decimal) : String :=
  let digits := Nat.toDigits 10 d.digits
  let lead : Int := digits.length + d.exponent - 1
  if style.smallest ≤ lead ∧ lead ≤ style.largest then
    if 0 ≤ d.exponent then toString (d.digits * Nat.pow 10 d.exponent.toNat) ++ ".0"
    else Fixed.ofUnits (-d.exponent).toNat d.digits
  else
    let first := String.ofList (digits.take 1)
    let rest := String.ofList (digits.drop 1)
    (if rest = "" then first else first ++ "." ++ rest) ++ (if 0 ≤ lead then "e+" else "e") ++
      toString lead

/-- A floating-point number by its shortest decimal; nothing for what is no number. -/
def ofFloat? (style : Style) (x : Float) : Option String :=
  match Binary.ofFloat x with
  | .finite negative m e =>
    let text := write style (ofBinary m e)
    some (if negative then "-" ++ text else text)
  | _ => none

end Shortest
end PreconditionMining
