/-
# Data as JSON text

Free-form data as JSON on one line, and back.  The fields of a record are read in
the increasing order of their names, and of several with one name the last one
counts.

A whole number that fits into 64 bits is an integer, and every other number a
floating-point number: as many of its digits as fit into 64 bits, rounded, and
then multiplied or divided by a power of ten, which is rounded too.  So a number
with many digits is not always read as the nearest one.
-/

import PreconditionMining.Data.Document
import PreconditionMining.Data.Numeral
import PreconditionMining.Data.Value

namespace PreconditionMining
namespace Json

/-- What was read, and the rest behind it; nothing where a text is not well formed. -/
abbrev Reading (α : Type) := Option (α × List Char)

/-- Whether a character may stand between the parts of a text. -/
def isGap (c : Char) : Bool := c = ' ' || c = '\t' || c = '\n' || c = '\r'

/-- Goes on past gaps. -/
def skip (cs : List Char) : List Char := cs.dropWhile isGap

/-- Appends digits to a number as long as it fits into 64 bits; gives the digits left over. -/
def appendDigits (n : Nat) : List Char → Nat × List Char
  | [] => (n, [])
  | c :: cs =>
    let next := 10 * n + (c.toNat - '0'.toNat)
    if next < Nat.pow 2 64 then appendDigits next cs else (n, c :: cs)

example : appendDigits 0 "18446744073709551616".toList = (1844674407370955161, ['6']) := by decide

/-- The largest power of ten that is a floating-point number. -/
def largestPower : Nat := 308

/-- A power of ten. -/
def power (e : Nat) : Float := Nearest.ofNat (Nat.pow 10 e)

/-- A floating-point number times a power of ten, unless that is too large. -/
def scaled? (x : Float) (e : Int) : Option Float :=
  let step : Int := largestPower
  if x == 0 then some x
  else if step < e then none
  else if 0 ≤ e then some (x * power e.toNat) |>.filter Float.isFinite
  else if -step ≤ e then some (x / power (-e).toNat)
  else if -2 * step ≤ e then some (x / power largestPower / power (-e - step).toNat)
  else some 0

/-- The number with a sign, whole digits, and what follows them: the digits behind a point, if
there is one, and the exponent, if there is one. -/
def numberOf? (negative : Bool) (whole : List Char) (parts : Option (List Char))
    (exponent : Option Int) : Option Value :=
  let (n, dropped) := appendDigits 0 whole
  let isInteger := dropped.isEmpty && parts.isNone && exponent.isNone
  if isInteger && !negative then some (.integer n)
  else if isInteger && 0 < n && n ≤ Nat.pow 2 63 then some (.integer (-n))
  else
    let digits := parts.getD []
    let (n, left) := appendDigits n digits
    let e := exponent.getD 0 + dropped.length - (digits.length - left.length : Nat)
    (scaled? (Nearest.ofNat n) e).map fun x => .number (if negative then -x else x)

/-- Reads a number. -/
def number? (cs : List Char) : Reading Value :=
  let (negative, cs) :=
    match cs with
    | '-' :: cs => (true, cs)
    | cs => (false, cs)
  let (whole, cs) := cs.span Char.isDigit
  let (parts, cs) :=
    match cs with
    | '.' :: cs =>
      let (parts, cs) := cs.span Char.isDigit
      (some parts, cs)
    | cs => (none, cs)
  let (exponent, cs) :=
    match cs with
    | c :: more =>
      if c = 'e' ∨ c = 'E' then
        let (word, cs) := more.span fun (c : Char) => c.isDigit || c = '+' || c = '-'
        (some (Numeral.integer? word), cs)
      else (none, cs)
    | [] => (none, [])
  if whole.isEmpty || parts.any List.isEmpty || exponent.any Option.isNone then none
  else (numberOf? negative whole parts exponent.join).map fun v => (v, cs)

/-- The characters that a letter behind a backslash stands for. -/
def escapes : List (Char × Char) :=
  [('"', '"'), ('\\', '\\'), ('/', '/'), ('b', '\x08'), ('f', '\x0c'), ('n', '\n'), ('r', '\r'),
    ('t', '\t')]

/-- The number of four hexadecimal digits. -/
def unit? (cs : List Char) : Option Nat :=
  if (cs.take 4).length = 4 then Numeral.natural? 16 (cs.take 4) else none

/-- The character that a letter behind a backslash, with what follows it, stands for, and how many
characters after the letter belong to it.  Characters beyond 16 bits are written in two halves. -/
def escape? (c : Char) (rest : List Char) : Option (Char × Nat) :=
  if c ≠ 'u' then (escapes.lookup c).map fun d => (d, 0)
  else
    match unit? rest with
    | none => none
    | some high =>
      if high.isValidChar then some (Char.ofNat high, 4)
      else
        match rest.drop 4 with
        | '\\' :: 'u' :: more =>
          match unit? more with
          | none => none
          | some low =>
            if high < 0xdc00 ∧ 0xdc00 ≤ low ∧ low < 0xe000 then
              some (Char.ofNat (0x10000 + (high - 0xd800) * 0x400 + (low - 0xdc00)), 10)
            else none
        | _ => none

/-- Reads a text behind its first quote, after characters that were read, in reverse.  The number
counts characters that belong to the escape before them. -/
def textRest? (read : List Char) : Nat → List Char → Reading String
  | _, [] => none
  | n + 1, _ :: cs => textRest? read n cs
  | 0, '"' :: cs => some (String.ofList read.reverse, cs)
  | 0, '\\' :: cs =>
    match cs with
    | [] => none
    | c :: rest =>
      match escape? c rest with
      | none => none
      | some (d, length) => textRest? (d :: read) (length + 1) (c :: rest)
  | 0, c :: cs => if c < ' ' then none else textRest? (c :: read) 0 cs

/-- The words of fixed meaning. -/
def words : List (String × Value) :=
  [("null", .null), ("true", .bool true), ("false", .bool false)]

/-- Reads a word of fixed meaning. -/
def word? (cs : List Char) : Reading Value :=
  words.findSome? fun (word, v) =>
    if word.toList.isPrefixOf cs then some (v, cs.drop word.length) else none

mutual

/-- Reads a datum with the gaps around it. -/
def value? : Nat → List Char → Reading Value
  | 0, _ => none
  | steps + 1, cs =>
    let read : Reading Value :=
      match skip cs with
      | '"' :: cs => (textRest? [] 0 cs).map fun (s, cs) => (.text s, cs)
      | '[' :: cs => (itemsRest? true steps (skip cs)).map fun (vs, cs) => (.list vs, cs)
      | '\x7b' :: cs =>
        (fieldsRest? true steps (skip cs)).map fun (fields, cs) =>
          (.ofDictionary (.ofList fields), cs)
      | cs => (word? cs).or (number? cs)
    read.map fun (v, cs) => (v, skip cs)
termination_by structural steps => steps

/-- Reads the rest of a list. -/
def itemsRest? (first : Bool) : Nat → List Char → Reading (List Value)
  | 0, _ => none
  | steps + 1, cs =>
    match first, cs with
    | true, ']' :: cs => some ([], cs)
    | _, cs =>
      match value? steps cs with
      | some (v, ',' :: cs) => (itemsRest? false steps cs).map fun (vs, cs) => (v :: vs, cs)
      | some (v, ']' :: cs) => some ([v], cs)
      | _ => none
termination_by structural steps => steps

/-- Reads the rest of a record. -/
def fieldsRest? (first : Bool) : Nat → List Char → Reading (List (String × Value))
  | 0, _ => none
  | steps + 1, cs =>
    match first, skip cs with
    | true, '\x7d' :: cs => some ([], cs)
    | _, '"' :: cs =>
      match textRest? [] 0 cs with
      | none => none
      | some (name, cs) =>
        match skip cs with
        | ':' :: cs =>
          match value? steps cs with
          | some (v, ',' :: cs) =>
            (fieldsRest? false steps cs).map fun (fields, cs) => ((name, v) :: fields, cs)
          | some (v, '\x7d' :: cs) => some ([(name, v)], cs)
          | _ => none
        | _ => none
    | _, _ => none
termination_by structural steps => steps

end

/-- Reads a text as a datum. -/
def read? (text : String) : Option Value :=
  let cs := text.toList
  match value? (2 * cs.length + 2) cs with
  | some (v, []) => some v
  | _ => none

mutual

/-- Writes a datum. -/
def write : Value → String
  | .null => "null"
  | .bool b => if b then "true" else "false"
  | .integer n => toString n
  | .number x => (Shortest.ofFloat? Shortest.documentStyle x).getD "null"
  | .character c => Document.quote c.toString
  | .text s => Document.quote s
  | .list vs => "[" ++ String.intercalate "," (writeItems vs) ++ "]"
  | .record fields => "\x7b" ++ String.intercalate "," (writeFields fields) ++ "\x7d"

/-- Writes items. -/
def writeItems : List Value → List String
  | [] => []
  | v :: vs => write v :: writeItems vs

/-- Writes fields. -/
def writeFields : List (String × Value) → List String
  | [] => []
  | (name, v) :: rest => (Document.quote name ++ ":" ++ write v) :: writeFields rest

end

end Json
end PreconditionMining
