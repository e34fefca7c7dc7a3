/-
# Decimals with a fixed number of places

A floating-point number is written with a fixed number of decimal places.  It is
rounded once, from its exact value, and a half goes to the even neighbour.
-/

import PreconditionMining.Decimal.Binary

namespace PreconditionMining
namespace Fixed

/-- The digits of a number, with zeros in front up to a length. -/
def padded (length n : Nat) : String :=
  let digits := Nat.toDigits 10 n
  String.ofList (List.replicate (length - digits.length) '0' ++ digits)

/-- A whole number of units of the last place, with a decimal point. -/
def ofUnits (places units : Nat) : String :=
  if places = 0 then toString units
  else toString (units / Nat.pow 10 places) ++ "." ++ padded places (units % Nat.pow 10 places)

/-- A floating-point number with a number of places. -/
def ofFloat (places : Nat) (x : Float) : String :=
  match Binary.ofFloat x with
  | .notANumber => "NaN"
  | .infinite negative => if negative then "-inf" else "inf"
  | .finite negative m e =>
    let text := ofUnits places (roundHalfEven (Ratio.mul (.scaled m 2 e) ⟨Nat.pow 10 places, 1⟩))
    if negative then "-" ++ text else text

end Fixed
end PreconditionMining
