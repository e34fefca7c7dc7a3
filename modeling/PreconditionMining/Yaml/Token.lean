/-
# Tokens of settings files

A settings file is a row of tokens: texts, the signs between them, and where maps
and lists begin and end.  Between brackets these are signs of their own.  Outside
of them a map or a list is nested by columns: it begins where a key or a dash
stands further to the right than the one around it, and ends where something
stands further to the left.

Only the colon behind it tells that an item is a key.  So the reader of tokens
remembers where an item begins that may turn out to be a key, and when the colon
comes it puts the tokens of the key, and of the map that may begin with it, in
front of the item.  An item is no key any more on the next line, or when it has
become too long; one that stands where only a key can stand must then be a fault.
-/

import PreconditionMining.Yaml.Folding

namespace PreconditionMining
namespace Yaml

/-- A token of a settings file. -/
inductive Token
  | documentStart
  | documentEnd
  /-- Where a list that is nested by columns begins. -/
  | blockListStart
  /-- Where a map that is nested by columns begins. -/
  | blockMapStart
  /-- Where a list or a map that is nested by columns ends. -/
  | blockEnd
  | listStart
  | listEnd
  | mapStart
  | mapEnd
  | comma
  | dash
  | key
  | value
  | plain (text : String)
  | quoted (text : String)
deriving DecidableEq

/-- Where an item begins that may turn out to be a key: how many tokens stand before it, and
whether nothing else than a key can stand there. -/
structure KeyStart extends Position where
  tokensBefore : Nat
  required : Bool

/-- How many bytes a key takes at most. -/
def longestKey : Nat := 1024

/-- Whether an item is no key any more at a position. -/
def KeyStart.isPast (k : KeyStart) (p : Position) : Bool :=
  k.line < p.line || k.offset + longestKey < p.offset

/-- The tokens read so far, and what is known where the next one is read. -/
structure TokenReader where
  place : Cursor
  tokens : Array Token := #[]
  /-- The columns of the maps and lists that are open outside of brackets, innermost first. -/
  columns : List Nat := []
  /-- The item that may turn out to be a key within the innermost brackets. -/
  candidate : Option KeyStart := none
  /-- The items that may turn out to be keys outside of these brackets, innermost first. -/
  outer : List (Option KeyStart) := []
  /-- Whether a key, or a dash outside of brackets, may begin here. -/
  mayBegin : Bool := true

namespace TokenReader

/-- Whether brackets are open. -/
def bracketed (r : TokenReader) : Bool := !r.outer.isEmpty

/-- Goes on to the next character that means something.  A key may begin on a new line. -/
def skip (r : TokenReader) : TokenReader :=
  let place := r.place.skip r.bracketed (r.bracketed || !r.mayBegin)
  { r with place, mayBegin := r.mayBegin || !r.bracketed && r.place.line < place.line }

/-- Adds a token that a number of characters write. -/
def emit (length : Nat) (t : Token) (r : TokenReader) : TokenReader :=
  { r with place := r.place.skipChars length, tokens := r.tokens.push t }

/-- Gives up the items that are no keys any more, unless one of them had to be one. -/
def dropPast? (r : TokenReader) : Option TokenReader :=
  let isPast (k : KeyStart) : Bool := k.isPast r.place.toPosition
  let isLost (k : Option KeyStart) : Bool := k.any fun k => isPast k && k.required
  let kept (k : Option KeyStart) : Option KeyStart := k.filter fun k => !isPast k
  if isLost r.candidate || r.outer.any isLost then none
  else some { r with candidate := kept r.candidate, outer := r.outer.map kept }

/-- Gives up the item that may turn out to be a key, unless it has to be one. -/
def dropCandidate? (r : TokenReader) : Option TokenReader :=
  if r.candidate.any (·.required) then none else some { r with candidate := none }

/-- Remembers the item that begins here, where a key may begin. -/
def remember? (r : TokenReader) : Option TokenReader :=
  if r.mayBegin then
    r.dropCandidate?.map fun r =>
      { r with candidate := some {
          r.place.toPosition with
          tokensBefore := r.tokens.size
          required := !r.bracketed && r.columns.head? = some r.place.column } }
  else some r

/-- Begins a map or a list in a column if it is nested in what is open there: puts a token behind
a number of tokens. -/
def openBlock (column tokensBefore : Nat) (t : Token) (r : TokenReader) : TokenReader :=
  if !r.bracketed && r.columns.head?.all (· < column) then
    { r with columns := column :: r.columns, tokens := r.tokens.insertIdxIfInBounds tokensBefore t }
  else r

/-- Ends the maps and lists, innermost first, up to one whose column may stay. -/
def closeBlocks (stays : Nat → Bool) (r : TokenReader) : TokenReader :=
  if r.bracketed then r
  else
    let closed := (r.columns.takeWhile fun column => !stays column).length
    { r with
      columns := r.columns.drop closed
      tokens := r.tokens ++ List.replicate closed Token.blockEnd }

/-- Reads a mark of a document, which ends everything that is open. -/
def mark? (t : Token) (r : TokenReader) : Option TokenReader :=
  ((r.closeBlocks fun _ => false).dropCandidate?).map fun r =>
    { r with mayBegin := false }.emit 3 t

/-- Reads a bracket that begins a list or a map. -/
def openBracket? (t : Token) (r : TokenReader) : Option TokenReader :=
  r.remember?.map fun r =>
    { r with candidate := none, outer := r.candidate :: r.outer, mayBegin := true }.emit 1 t

/-- Reads a bracket that ends a list or a map. -/
def closeBracket? (t : Token) (r : TokenReader) : Option TokenReader :=
  r.dropCandidate?.map fun r =>
    { r with
      candidate := r.outer.head?.getD r.candidate, outer := r.outer.tail
      mayBegin := false }.emit 1 t

/-- Reads a comma between brackets. -/
def comma? (r : TokenReader) : Option TokenReader :=
  r.dropCandidate?.map fun r => { r with mayBegin := true }.emit 1 .comma

/-- Begins a map or a list at a sign that stands alone, where one may begin. -/
def openAtSign? (t : Token) (r : TokenReader) : Option TokenReader :=
  if r.bracketed then some r
  else if r.mayBegin then some (r.openBlock r.place.column r.tokens.size t)
  else none

/-- Reads the dash in front of an entry of a list. -/
def dash? (r : TokenReader) : Option TokenReader :=
  ((r.openAtSign? .blockListStart).bind dropCandidate?).map fun r =>
    { r with mayBegin := true }.emit 1 .dash

/-- Reads the question mark in front of a key. -/
def keySign? (r : TokenReader) : Option TokenReader :=
  ((r.openAtSign? .blockMapStart).bind dropCandidate?).map fun r =>
    { r with mayBegin := !r.bracketed }.emit 1 .key

/-- Reads the colon behind a key. -/
def valueSign? (r : TokenReader) : Option TokenReader :=
  match r.candidate with
  | some k =>
    let r := { r with tokens := r.tokens.insertIdxIfInBounds k.tokensBefore .key }
    let r := r.openBlock k.column k.tokensBefore .blockMapStart
    some ({ r with candidate := none, mayBegin := false }.emit 1 .value)
  | none =>
    (r.openAtSign? .blockMapStart).map fun r =>
      { r with mayBegin := !r.bracketed }.emit 1 .value

/-- Reads quoted text behind its first quote. -/
def quoted? (pieces : Option (List Piece × List Char)) (r : TokenReader) : Option TokenReader :=
  match pieces, r.remember? with
  | some (ps, rest), some r =>
    some { r with
      place := r.place.skipTo rest, tokens := r.tokens.push (.quoted (folded ps))
      mayBegin := false }
  | _, _ => none

/-- Reads plain text.  A key may begin behind it when its line has ended. -/
def plain? (r : TokenReader) : Option TokenReader :=
  let least := (r.columns.head?.map (· + 1)).getD 0
  match plainRun? r.bracketed least none r.place.toPosition r.place.rest, r.remember? with
  | some run, some r =>
    some { r with
      place := run.ending, tokens := r.tokens.push (.plain run.text), mayBegin := run.endsLine }
  | _, _ => none

/-- Whether plain text may begin with the next characters. -/
def beginsPlain (bracketed : Bool) : List Char → Bool
  | [] => false
  | c :: cs =>
    if c = '-' then !atBreak cs
    else if c = '?' ∨ c = ':' then !bracketed && !atBreak cs
    else !atBreak [c] && !",[]\x7b\x7d#&*!|>'\"%@\x60".toList.contains c

/-- Reads the token that begins here. -/
def token? (r : TokenReader) : Option TokenReader :=
  let cs := r.place.rest
  let signs := r.bracketed || atBreak cs.tail
  if r.place.column = 0 && atMark '-' cs then r.mark? .documentStart
  else if r.place.column = 0 && atMark '.' cs then r.mark? .documentEnd
  else
    match cs with
    | '[' :: _ => r.openBracket? .listStart
    | ']' :: _ => r.closeBracket? .listEnd
    | '\x7b' :: _ => r.openBracket? .mapStart
    | '\x7d' :: _ => r.closeBracket? .mapEnd
    | ',' :: _ => r.comma?
    | '\'' :: rest => r.quoted? (singleQuoted? rest)
    | '"' :: rest => r.quoted? (doubleQuoted? 0 rest)
    | c :: rest =>
      if c = '-' && atBreak rest then r.dash?
      else if c = '?' && signs then r.keySign?
      else if c = ':' && signs then r.valueSign?
      else if beginsPlain r.bracketed cs then r.plain?
      else none
    | [] => none

/-- Reads the tokens up to the end of the text, within a number of steps. -/
def tokens? : Nat → TokenReader → Option (List Token)
  | 0, _ => none
  | steps + 1, r =>
    match r.skip.dropPast? with
    | none => none
    | some r =>
      let r := r.closeBlocks (· ≤ r.place.column)
      if r.place.rest.isEmpty then
        ((r.closeBlocks fun _ => false).dropCandidate?).map (·.tokens.toList)
      else
        match r.token? with
        | none => none
        | some r => tokens? steps r

end TokenReader

/-- The tokens of a settings file, if it is well formed as far as they go.  Each token takes at
least one character. -/
def Token.ofText? (text : String) : Option (List Token) :=
  (Cursor.ofText? text).bind fun start =>
    TokenReader.tokens? (start.rest.length + 1) { place := start }

/-- The tokens of a key come in front of it. -/
example : Token.ofText? "a: [b]\n" =
    some [.blockMapStart, .key, .plain "a", .value, .listStart, .plain "b", .listEnd,
      .blockEnd] := by
  decide +kernel

end Yaml
end PreconditionMining
