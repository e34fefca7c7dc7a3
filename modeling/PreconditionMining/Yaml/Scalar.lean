/-
# Plain words

What plain text in a settings file stands for: nothing, a truth value, a number,
or itself.  Whole numbers may have a sign and may be written in the bases 2, 8
and 16, and have at most 128 bits; a larger one counts as a number with a point.
Digits that begin with a zero are no number but a text, and so is a number with a
point that is too large for a floating-point number.
-/

import PreconditionMining.Data.Numeral
import PreconditionMining.Data.Value

namespace PreconditionMining
namespace Yaml

/-- The bases that a mark in front of the digits announces. -/
def bases : List (Char × Nat) := [('x', 16), ('o', 8), ('b', 2)]

/-- Whether digits begin with a zero that is not all of them. -/
def hasLeadingZero (digits : List Char) : Bool :=
  digits.length > 1 && digits.head? = some '0' && digits.all Char.isDigit

/-- The whole number that a word without sign writes. -/
def unsigned? (digits : List Char) : Option Nat :=
  match digits with
  | '0' :: mark :: rest =>
    match bases.lookup mark with
    | some base => Numeral.natural? base rest
    | none => if hasLeadingZero digits then none else Numeral.natural? 10 digits
  | _ => Numeral.natural? 10 digits

/-- The whole number that a word writes, if 128 bits hold it. -/
def integer? (word : List Char) : Option Int :=
  let (negative, digits) := Numeral.signed word
  ((unsigned? digits).map (Numeral.withSign negative)).filter (Numeral.fits 128)

/-- The finite number with or without a point that a word writes. -/
def decimal? (word : List Char) : Option Float :=
  if hasLeadingZero (Numeral.signed word).2 then none
  else (Numeral.decimal? word).filter Float.isFinite

/-- What is no number. -/
def notANumber : Float := Float.ofBits 0x7ff8000000000000

/-- The infinite number. -/
def infinity : Float := Nearest.ofRatio false (.scaled 1 2 1024)

/-- Words of fixed meaning. -/
def fixedWords : List (String × Value) :=
  [("", .null), ("~", .null), ("null", .null), ("Null", .null), ("NULL", .null),
    ("true", .bool true), ("True", .bool true), ("TRUE", .bool true),
    ("false", .bool false), ("False", .bool false), ("FALSE", .bool false),
    (".nan", .number notANumber), (".NaN", .number notANumber), (".NAN", .number notANumber)] ++
  [("", infinity), ("+", infinity), ("-", -infinity)].flatMap fun (sign, x) =>
    [".inf", ".Inf", ".INF"].map fun word => (sign ++ word, .number x)

/-- What plain text stands for. -/
def plainValue (text : String) : Value :=
  match Dictionary.lookup text fixedWords, integer? text.toList with
  | some v, _ => v
  | none, some n => .integer n
  | none, none => (decimal? text.toList).elim (.text text) .number

end Yaml
end PreconditionMining
