/-
# Settings in the environment

An environment variable whose name begins with `CONDMINE_`, in any case, is a
setting.  The rest of its name, in lower case, is the way to the setting, and two
underscores lead from a section into a part of it.

The value of a variable is a truth value, a number, a text in quotes, a list in
brackets, a map in braces, a character in single quotes, or a text without quotes;
what is none of these is a text as it stands.
-/

import PreconditionMining.Data.Merge
import PreconditionMining.Data.Numeral
import PreconditionMining.Text.Space

namespace PreconditionMining
namespace Environment

/-- What was read, and the rest behind it; nothing where a text is not well formed. -/
abbrev Reading (α : Type) := Option (α × List Char)

/-- Whether a character may stand between the parts of a value. -/
def isGap (c : Char) : Bool := c = ' ' || c = '\t' || c = '\n' || c = '\r' || c = '\x0c'

/-- Whether a text without quotes ends before a character. -/
def isSeparator (c : Char) : Bool := c = ',' || c = '[' || c = ']' || c = '\x7b' || c = '\x7d'

/-- Whether a character may stand in a name without quotes. -/
def isNameChar (c : Char) : Bool := c.isAlphanum || c = '_' || c = '-'

/-- The character that a letter behind a backslash stands for. -/
def escapes : List (Char × Char) :=
  [('"', '"'), ('\\', '\\'), ('b', '\x08'), ('f', '\x0c'), ('n', '\n'), ('r', '\r'), ('t', '\t')]

/-- The number of hexadecimal digits that a letter behind a backslash announces. -/
def announced : Char → Nat
  | 'u' => 4
  | 'U' => 8
  | _ => 0

/-- The character that a letter behind a backslash, with the digits after it, stands for. -/
def escaped? (c : Char) (digits : List Char) : Option Char :=
  if announced c = 0 then escapes.lookup c
  else if digits.length < announced c then none
  else
    (Numeral.natural? 16 (digits.take (announced c))).bind fun n =>
      if n.isValidChar then some (Char.ofNat n) else none

/-- Whether a character may stand in quotes as it is. -/
def isQuotable (c : Char) : Bool := c = '\t' || (' ' ≤ c && c ≠ '\x7f')

/-- Reads a text in quotes behind the first quote.  The number counts characters that belong to
the escape before them. -/
def quotedRest? : Nat → List Char → Reading (List Char)
  | _, [] => none
  | n + 1, _ :: cs => quotedRest? n cs
  | 0, '"' :: cs => some ([], cs)
  | 0, '\\' :: cs =>
    match cs with
    | [] => none
    | c :: digits =>
      match escaped? c digits with
      | none => none
      | some d =>
        (quotedRest? (announced c + 1) (c :: digits)).map fun (text, rest) => (d :: text, rest)
  | 0, c :: cs =>
    if isQuotable c then (quotedRest? 0 cs).map fun (text, rest) => (c :: text, rest) else none

/-- Reads a name, with quotes or without. -/
def name? : List Char → Reading String
  | '"' :: cs => (quotedRest? 0 cs).map fun (text, rest) => (String.ofList text, rest)
  | cs =>
    match cs.span isNameChar with
    | ([], _) => none
    | (text, rest) => some (String.ofList text, rest)

/-- What a text without quotes stands for: a number where it is one, of which a decimal number
has a point and a whole number fits into 64 bits. -/
def wordValue (word : List Char) : Value :=
  match if word.contains '.' then Numeral.decimal? word else none with
  | some x => .number x
  | none =>
    match (Numeral.integer? word).filter (Numeral.fits 64) with
    | some n => .integer n
    | none => .text (String.ofList word)

mutual

/-- Reads a value, with the gaps around it. -/
def value? : Nat → List Char → Reading Value
  | 0, _ => none
  | steps + 1, cs =>
    let cs := cs.dropWhile isGap
    let read :=
      if "true".toList.isPrefixOf cs then some (.bool true, cs.drop 4)
      else if "false".toList.isPrefixOf cs then some (.bool false, cs.drop 5)
      else
        match cs with
        | '\x7b' :: rest =>
          (fieldsRest? steps rest).map fun (fields, rest) => (.ofDictionary (.ofList fields), rest)
        | '[' :: rest => (itemsRest? steps rest).map fun (items, rest) => (.list items, rest)
        | '"' :: rest =>
          (quotedRest? 0 rest).map fun (text, rest) => (.text (String.ofList text), rest)
        | '\'' :: c :: '\'' :: rest => some (.character c, rest)
        | '\'' :: _ => none
        | cs =>
          let (word, rest) := cs.span fun c => !isSeparator c
          some (wordValue (Space.trim word), rest)
    read.map fun (v, rest) => (v, rest.dropWhile isGap)

/-- Reads the rest of a list in brackets. -/
def itemsRest? : Nat → List Char → Reading (List Value)
  | 0, _ => none
  | steps + 1, cs =>
    if cs.head? = some ']' then some ([], cs.drop 1)
    else
      match value? steps cs with
      | some (v, ',' :: rest) => (itemsRest? steps rest).map fun (vs, rest) => (v :: vs, rest)
      | some (v, ']' :: rest) => some ([v], rest)
      | _ => none

/-- Reads the rest of a map in braces. -/
def fieldsRest? : Nat → List Char → Reading (List (String × Value))
  | 0, _ => none
  | steps + 1, cs =>
    if cs.head? = some '\x7d' then some ([], cs.drop 1)
    else
      match name? (cs.dropWhile isGap) with
      | none => none
      | some (name, rest) =>
        match rest.dropWhile isGap with
        | '=' :: rest =>
          match value? steps rest with
          | some (v, ',' :: rest) =>
            (fieldsRest? steps rest).map fun (fields, rest) => ((name, v) :: fields, rest)
          | some (v, '\x7d' :: rest) => some ([(name, v)], rest)
          | _ => none
        | _ => none

end

/-- The value of a variable. -/
def value (text : String) : Value :=
  let cs := text.toList
  match value? (2 * cs.length + 2) cs with
  | some (v, []) => v
  | _ => .text text

/-- What the name of a setting begins with, in lower case. -/
def marker : List Char := "condmine_".toList

/-- Replaces two underscores by a point. -/
def pointed : List Char → List Char
  | [] => []
  | '_' :: '_' :: cs => '.' :: pointed cs
  | c :: cs => c :: pointed cs

/-- The parts of a text between points. -/
def parts : List Char → List (List Char)
  | [] => [[]]
  | c :: cs =>
    if c = '.' then [] :: parts cs
    else
      match parts cs with
      | [] => [[c]]
      | first :: rest => (c :: first) :: rest

/-- The way to the setting that a variable names, without the white space around it.  No part of
the way may be empty. -/
def path? (entry : String) : Option (List String) :=
  let name := (Space.trim entry.toList).map Char.toLower
  if marker.isPrefixOf name then
    let way := parts (Space.trim (pointed (name.drop marker.length)))
    if way.any List.isEmpty then none else some (way.map String.ofList)
  else none

/-- The data in which a value lies at the end of a way. -/
def nested (path : List String) (v : Value) : Value :=
  path.foldr (fun name inner => .record [(name, inner)]) v

/-- What one variable says about the settings. -/
def setting? (entry : String × String) : Option Value :=
  (path? entry.1).map fun path => nested path (value entry.2)

/-- The settings in an environment, of which later variables win. -/
def settings (entries : List (String × String)) : Value :=
  (entries.filterMap setting?).foldl Value.merge (.record [])

end Environment
end PreconditionMining
