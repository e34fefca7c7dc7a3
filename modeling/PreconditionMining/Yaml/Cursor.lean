/-
# Places in a text

A settings file is read from a place in its text: what is left of the text, and
the position of the next character.  Its column tells how deep a part of the text
is nested.

`Cursor.skip` goes on to the next character that means something, past blanks,
empty lines, comments and the byte order marks that begin a line.  A tab is no
blank where it would count as nesting.
-/

namespace PreconditionMining
namespace Yaml

/-- Whether a character separates words of one line. -/
def isBlank (c : Char) : Bool := c = ' ' || c = '\t'

/-- Whether a character ends a line. -/
def isBreak (c : Char) : Bool := c = '\n' || c = '\u2028' || c = '\u2029'

/-- Whether a text begins with a character that separates words or lines, or has ended. -/
def atBreak : List Char → Bool
  | [] => true
  | c :: _ => isBlank c || isBreak c

/-- Whether a text begins with a mark: three times a given character, standing alone. -/
def atMark (mark : Char) : List Char → Bool
  | x :: y :: z :: rest => x = mark && y = mark && z = mark && atBreak rest
  | _ => false

/-- Whether a text begins with the mark that begins or the one that ends a document. -/
def atAnyMark (cs : List Char) : Bool := atMark '-' cs || atMark '.' cs

/-- Writes the common ends of lines alike.  The separators of lines and of paragraphs stay. -/
def unifyLines : List Char → List Char
  | [] => []
  | '\r' :: '\n' :: cs => '\n' :: unifyLines cs
  | c :: cs => (if c = '\r' ∨ c = '\x85' then '\n' else c) :: unifyLines cs

/-- Whether a character may stand in a settings file. -/
def isAllowed (c : Char) : Bool :=
  c = '\t' || c = '\n' || (' ' ≤ c && c ≤ '~') ||
    ('\xa0' ≤ c && c ≠ '\ufffe' && c ≠ '\uffff')

/-- Where a character stands in a text. -/
structure Position where
  line : Nat := 0
  column : Nat := 0
  /-- How many bytes come before the character. -/
  offset : Nat := 0
deriving DecidableEq

/-- The position behind a character. -/
def Position.after (p : Position) (c : Char) : Position :=
  let offset := p.offset + c.utf8Size
  if isBreak c then ⟨p.line + 1, 0, offset⟩ else ⟨p.line, p.column + 1, offset⟩

/-- A place in a text. -/
structure Cursor extends Position where
  rest : List Char
deriving DecidableEq

namespace Cursor

/-- The place behind the next character. -/
def next (c : Cursor) : Cursor :=
  match c.rest with
  | [] => c
  | x :: rest => ⟨c.after x, rest⟩

/-- The place behind a number of characters. -/
def skipChars : Nat → Cursor → Cursor
  | 0, c => c
  | n + 1, c => skipChars n c.next

/-- The place behind what leaves a given rest of the text. -/
def skipTo (c : Cursor) (rest : List Char) : Cursor :=
  c.skipChars (c.rest.length - rest.length)

/-- Goes on to the next character that means something.  The truth values say whether brackets
are open, whether a comment is being passed, and whether a tab is a blank here. -/
def skipFrom (bracketed comment tabs : Bool) (p : Position) : List Char → Cursor
  | [] => ⟨p, []⟩
  | c :: cs =>
    if isBreak c then skipFrom bracketed false bracketed (p.after c) cs
    else if comment || c = ' ' || c = '\t' && tabs || c = '\ufeff' && p.column = 0 then
      skipFrom bracketed comment tabs (p.after c) cs
    else if c = '#' then skipFrom bracketed true tabs (p.after c) cs
    else ⟨p, c :: cs⟩

/-- Goes on to the next character that means something. -/
def skip (bracketed tabs : Bool) (c : Cursor) : Cursor :=
  skipFrom bracketed false tabs c.toPosition c.rest

end Cursor

/-- A byte order mark is passed where it begins a line, once, and takes a column. -/
example : (Cursor.mk {} "\n\ufeff\ufeff".toList).skip false false =
    ⟨⟨1, 1, 4⟩, ['\ufeff']⟩ := by
  decide +kernel

/-- The beginning of a text, if all its characters are allowed. -/
def Cursor.ofText? (text : String) : Option Cursor :=
  let cs := unifyLines text.toList
  if cs.all isAllowed then some ⟨{}, cs⟩ else none

end Yaml
end PreconditionMining
