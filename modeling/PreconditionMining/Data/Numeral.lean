/-
# Numbers in settings texts

How numbers are read from words of a text: whole numbers by their digits in some
base, and decimal numbers with a point or a power of ten.  A decimal number
stands for the nearest floating-point number, which is infinite for one that is
too large.
-/

import PreconditionMining.Decimal.Nearest

namespace PreconditionMining
namespace Numeral

/-- The value of a digit, of which letters are those above nine. -/
def digit? (c : Char) : Option Nat :=
  if '0' ≤ c ∧ c ≤ '9' then some (c.toNat - '0'.toNat)
  else if 'a' ≤ c ∧ c ≤ 'z' then some (c.toNat - 'a'.toNat + 10)
  else if 'A' ≤ c ∧ c ≤ 'Z' then some (c.toNat - 'A'.toNat + 10)
  else none

/-- Reads further digits behind a number. -/
def appendDigits? (base : Nat) : Nat → List Char → Option Nat
  | n, [] => some n
  | n, c :: cs =>
    match digit? c with
    | none => none
    | some d => if d < base then appendDigits? base (base * n + d) cs else none

/-- The number that one or more digits write. -/
def natural? (base : Nat) : List Char → Option Nat
  | [] => none
  | cs => appendDigits? base 0 cs

/-- Parts a sign from what it stands before. -/
def signed : List Char → Bool × List Char
  | '-' :: cs => (true, cs)
  | '+' :: cs => (false, cs)
  | cs => (false, cs)

/-- The opposite of a number where that is wanted. -/
def withSign (negative : Bool) (n : Nat) : Int := if negative then -n else n

/-- The whole number that digits with or without a sign write. -/
def integer? (cs : List Char) : Option Int :=
  let (negative, digits) := signed cs
  (natural? 10 digits).map (withSign negative)

/-- Whether a whole number can be held in a number of bits, with a sign or without. -/
def fits (bits : Nat) (n : Int) : Bool := -Int.pow 2 (bits - 1) ≤ n && n < Int.pow 2 bits

/-- The exponent behind a number, 0 where there is none. -/
def exponent? : List Char → Option Int
  | [] => some 0
  | c :: cs => if c = 'e' ∨ c = 'E' then integer? cs else none

/-- The decimal number that a word writes: digits with a point somewhere or without one, with a
sign or without, perhaps times a power of ten. -/
def decimal? (cs : List Char) : Option Float :=
  let (negative, cs) := signed cs
  let (whole, rest) := cs.span Char.isDigit
  let (parts, rest) :=
    match rest with
    | '.' :: more => more.span Char.isDigit
    | _ => ([], rest)
  match natural? 10 (whole ++ parts), exponent? rest with
  | some n, some e => some (Nearest.ofDecimal negative n (e - parts.length))
  | _, _ => none

example : (decimal? "1.50".toList).isSome ∧ (decimal? ".".toList).isNone ∧
    (decimal? "1e".toList).isNone ∧ (decimal? "+.5E-3".toList).isSome := by decide

end Numeral
end PreconditionMining
