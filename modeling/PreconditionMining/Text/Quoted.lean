/-
# Quoted text

A text shown in quotes: quotation marks and backslashes get a backslash, as do
the tabulator and the two line ends in their usual letters and the null
character as a zero, and characters that cannot be seen are written by their
number in hexadecimal digits.
-/

import PreconditionMining.Text.Invisible

namespace PreconditionMining
namespace Quoted

/-- A number in lower-case hexadecimal digits. -/
def hex (n : Nat) : String := String.ofList (Nat.toDigits 16 n)

/-- A character as it stands between quotes. -/
def escape (c : Char) : String :=
  match c with
  | '"' => "\\\""
  | '\\' => "\\\\"
  | '\n' => "\\n"
  | '\r' => "\\r"
  | '\t' => "\\t"
  | '\x00' => "\\0"
  | c => if isInvisible c then "\\u\x7b" ++ hex c.toNat ++ "\x7d" else c.toString

end Quoted

/-- A text in quotes. -/
def quoted (s : String) : String := "\"" ++ String.join (s.toList.map Quoted.escape) ++ "\""

end PreconditionMining
