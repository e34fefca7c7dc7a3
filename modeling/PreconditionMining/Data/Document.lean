/-
# Data documents

A document is a word, a list of documents, or a record of named documents.  It
is written over several lines, each level of nesting two spaces further to the
right; an empty list or record stays on its line.

Texts in a document are quoted: quotation marks and backslashes get a backslash,
and control characters are written by their letter where they have one and by
their number otherwise.
-/

import PreconditionMining.Decimal.Shortest

namespace PreconditionMining

/-- A document; a word stands for itself. -/
inductive Document
  | word (text : String)
  | list (items : List Document)
  | record (fields : List (String × Document))

namespace Document

/-- A character of a text in a document. -/
def escape (c : Char) : String :=
  match c with
  | '"' => "\\\""
  | '\\' => "\\\\"
  | '\n' => "\\n"
  | '\r' => "\\r"
  | '\t' => "\\t"
  | '\x08' => "\\b"
  | '\x0c' => "\\f"
  | c =>
    if c.toNat < 32 then
      let digits := Nat.toDigits 16 c.toNat
      "\\u" ++ String.ofList (List.replicate (4 - digits.length) '0' ++ digits)
    else c.toString

/-- A text in quotes. -/
def quote (s : String) : String := "\"" ++ String.join (s.toList.map escape) ++ "\""

/-- A text. -/
def text (s : String) : Document := word (quote s)

/-- A whole number. -/
def natural (n : Nat) : Document := word (toString n)

/-- A truth value. -/
def bool (b : Bool) : Document := word (if b then "true" else "false")

/-- Nothing. -/
def null : Document := word "null"

/-- A floating-point number; nothing for what is no number. -/
def number (x : Float) : Document :=
  match Shortest.ofFloat? Shortest.documentStyle x with
  | some t => word t
  | none => null

/-- A new line, a number of levels to the right. -/
def newLine (level : Nat) : String := "\n" ++ String.join (List.replicate level "  ")

mutual

/-- Writes a document that stands a number of levels to the right. -/
def write (level : Nat) : Document → String
  | word t => t
  | list [] => "[]"
  | list (d :: ds) =>
    "[" ++ newLine (level + 1) ++ write (level + 1) d ++ writeItems (level + 1) ds ++
      newLine level ++ "]"
  | record [] => "\x7b\x7d"
  | record ((name, d) :: rest) =>
    "\x7b" ++ newLine (level + 1) ++ quote name ++ ": " ++ write (level + 1) d ++
      writeFields (level + 1) rest ++ newLine level ++ "\x7d"

/-- Writes the items after the first one. -/
def writeItems (level : Nat) : List Document → String
  | [] => ""
  | d :: ds => "," ++ newLine level ++ write level d ++ writeItems level ds

/-- Writes the fields after the first one. -/
def writeFields (level : Nat) : List (String × Document) → String
  | [] => ""
  | (name, d) :: rest =>
    "," ++ newLine level ++ quote name ++ ": " ++ write level d ++ writeFields level rest

end

end Document

end PreconditionMining
