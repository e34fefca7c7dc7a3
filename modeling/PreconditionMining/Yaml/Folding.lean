/-
# Plain, quoted and folded text

A text in a settings file may go on over several lines.  Its lines are folded:
one end of line is a blank, further ones are ends of lines, and the blanks around
them do not count; a separator of lines or of paragraphs is kept.  A character
behind a backslash in double quotes stands for another one and always counts; an
end of line behind a backslash is no blank.

Plain text ends before a colon or a comment that stands alone, and where the next
line does not stand far enough to the right.  No text goes on past a line that
begins with a mark of a document.
-/

import PreconditionMining.Data.Numeral
import PreconditionMining.Yaml.Cursor

namespace PreconditionMining
namespace Yaml

/-- A piece of a text before it is folded. -/
inductive Piece
  | raw (c : Char)
  | escaped (c : Char)
  /-- An end of line that is no blank. -/
  | join

/-- The ends of lines passed since the last character that counts: the first one, if it counts,
and the further ones. -/
structure Gap where
  first : Option Char
  further : List Char

/-- What the ends of lines stand for. -/
def Gap.text (g : Gap) : List Char :=
  if g.first = some '\n' then (if g.further.isEmpty then [' '] else g.further)
  else g.first.toList ++ g.further

/-- Folds pieces, after blanks and ends of lines that were passed since the last character that
counts. -/
def foldFrom : List Char → Option Gap → List Piece → List Char
  | blanks, gap, [] => (gap.map Gap.text).getD blanks
  | blanks, gap, .raw c :: ps =>
    if isBreak c then
      match gap with
      | none => foldFrom [] (some ⟨some c, []⟩) ps
      | some g => foldFrom [] (some ⟨g.first, g.further ++ [c]⟩) ps
    else if isBlank c then foldFrom (if gap.isSome then [] else blanks ++ [c]) gap ps
    else (gap.map Gap.text).getD blanks ++ c :: foldFrom [] none ps
  | blanks, gap, .escaped c :: ps =>
    (gap.map Gap.text).getD blanks ++ c :: foldFrom [] none ps
  | blanks, gap, .join :: ps =>
    (gap.map Gap.text).getD blanks ++ foldFrom [] (some ⟨none, []⟩) ps

/-- The text that folded pieces are. -/
def folded (ps : List Piece) : String := String.ofList (foldFrom [] none ps)

example : foldFrom [] none ("a \n b\n\nc".toList.map .raw) = "a b\nc".toList := by decide

/-- The characters that a letter behind a backslash stands for. -/
def escapes : List (Char × Char) :=
  [('0', '\x00'), ('a', '\x07'), ('b', '\x08'), ('t', '\t'), ('\t', '\t'), ('n', '\n'),
    ('v', '\x0b'), ('f', '\x0c'), ('r', '\r'), ('e', '\x1b'), (' ', ' '), ('"', '"'), ('/', '/'),
    ('\\', '\\'), ('N', '\x85'), ('_', '\xa0'), ('L', '\u2028'), ('P', '\u2029')]

/-- The character of a number, if the number is one of a character. -/
def charOf? (n : Nat) : Option Char := if n.isValidChar then some (Char.ofNat n) else none

/-- The number of hexadecimal digits that a letter behind a backslash announces. -/
def announced : Char → Nat
  | 'x' => 2
  | 'u' => 4
  | 'U' => 8
  | _ => 0

/-- The piece that a letter behind a backslash, with the digits after it, is. -/
def escape? (c : Char) (digits : List Char) : Option Piece :=
  if isBreak c then if atAnyMark digits then none else some .join
  else if announced c = 0 then (escapes.lookup c).map .escaped
  else
    let digits := digits.take (announced c)
    if digits.length = announced c then
      ((Numeral.natural? 16 digits).bind charOf?).map .escaped
    else none

/-- The pieces of a text in double quotes, and the rest behind the quote that ends it.  The
number counts characters that belong to the escape before them. -/
def doubleQuoted? : Nat → List Char → Option (List Piece × List Char)
  | _, [] => none
  | n + 1, _ :: cs => doubleQuoted? n cs
  | 0, '"' :: cs => some ([], cs)
  | 0, '\\' :: cs =>
    match cs with
    | [] => none
    | c :: digits =>
      match escape? c digits with
      | none => none
      | some p =>
        (doubleQuoted? (announced c + 1) (c :: digits)).map fun (ps, rest) => (p :: ps, rest)
  | 0, c :: cs =>
    if isBreak c && atAnyMark cs then none
    else (doubleQuoted? 0 cs).map fun (ps, rest) => (.raw c :: ps, rest)

/-- The pieces of a text in single quotes, in which a quote is written twice, and the rest
behind the quote that ends it. -/
def singleQuoted? : List Char → Option (List Piece × List Char)
  | [] => none
  | '\'' :: '\'' :: cs => (singleQuoted? cs).map fun (ps, rest) => (.raw '\'' :: ps, rest)
  | '\'' :: cs => some ([], cs)
  | c :: cs =>
    if isBreak c && atAnyMark cs then none
    else (singleQuoted? cs).map fun (ps, rest) => (.raw c :: ps, rest)

/-- What plain text does before a character. -/
inductive PlainEnd
  | goesOn
  | ends
  | fault

/-- What plain text does before a character that is no blank.  Inside brackets it also ends
before commas and brackets, and a colon must not stand right before one. -/
def plainEnd (bracketed : Bool) (c : Char) (rest : List Char) : PlainEnd :=
  if bracketed && c = ':' && rest.head?.any ",?[]\x7b\x7d".toList.contains then .fault
  else if c = ':' && atBreak rest || bracketed && ",[]\x7b\x7d".toList.contains c then .ends
  else .goesOn

/-- Plain text as it stands, with the blanks behind it: the place behind these, and whether a
line ends among them. -/
structure PlainRun where
  chars : List Char
  ending : Cursor
  endsLine : Bool

/-- Reads plain text from a position on.  Among blanks, the first argument tells whether
a line has ended since the last word.  Lines after the first one do not stand left of a column,
unless brackets are open, and left of it no tab is a blank. -/
def plainRun? (bracketed : Bool) (least : Nat) :
    Option Bool → Position → List Char → Option PlainRun
  | gap, p, [] => some ⟨[], ⟨p, []⟩, gap.getD false⟩
  | gap, p, c :: cs =>
    let stop : Option PlainRun := some ⟨[], ⟨p, c :: cs⟩, gap.getD false⟩
    let taken : Option PlainRun → Option PlainRun :=
      Option.map fun run => { run with chars := c :: run.chars }
    if isBreak c then taken (plainRun? bracketed least (some true) (p.after c) cs)
    else if isBlank c then
      if c = '\t' && gap = some true && p.column < least then none
      else taken (plainRun? bracketed least (some (gap.getD false)) (p.after c) cs)
    else if gap.isSome && (c = '#' || !bracketed && p.column < least ||
        p.column = 0 && atAnyMark (c :: cs)) then stop
    else
      match plainEnd bracketed c cs with
      | .fault => none
      | .ends => stop
      | .goesOn => taken (plainRun? bracketed least none (p.after c) cs)

/-- The text of a plain run, without the blanks behind it. -/
def PlainRun.text (run : PlainRun) : String :=
  let chars := (run.chars.reverse.dropWhile fun c => isBlank c || isBreak c).reverse
  folded (chars.map .raw)

end Yaml
end PreconditionMining
