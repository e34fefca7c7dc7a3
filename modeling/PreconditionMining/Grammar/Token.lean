/-
# Tokens of an expansion

In the text of an expansion, a stretch from a `<` to the next `>` is a
nonterminal where the grammar defines it.  All other characters are terminal
text: also a `<` that opens no defined name, after which the reading goes on
with the next character.

The reading goes on behind a name that it has found, with a shorter text
(`length_lt_of_nameAt`).
-/

import PreconditionMining.Grammar.Basic

namespace PreconditionMining

/-- A piece of an expansion. -/
inductive Token
  | terminal (text : String)
  | nonterminal (name : String)
deriving DecidableEq

/-- The text that a token stands for in an expansion. -/
def Token.text : Token → String
  | terminal t => t
  | nonterminal n => n

/-- A text cut after its first `>`. -/
def cutAfterClose : List Char → Option (List Char × List Char)
  | [] => none
  | c :: cs =>
    if c = '>' then some ([c], cs)
    else (cutAfterClose cs).map fun (front, rest) => (c :: front, rest)

theorem cutAfterClose_append :
    ∀ {cs front rest : List Char}, cutAfterClose cs = some (front, rest) → front ++ rest = cs
  | [], _, _, h => by simp [cutAfterClose] at h
  | c :: cs, front, rest, h => by
    unfold cutAfterClose at h
    split at h
    · obtain ⟨rfl, rfl⟩ := by simpa using h
      rfl
    · obtain ⟨⟨front', rest'⟩, cut, eq⟩ := Option.map_eq_some_iff.1 h
      obtain ⟨rfl, rfl⟩ := Prod.mk.inj eq
      simp [cutAfterClose_append cut]

/-- The defined name at the beginning of a text, and the text after it. -/
def nameAt (defined : String → Bool) : List Char → Option (String × List Char)
  | '<' :: cs =>
    match cutAfterClose cs with
    | some (front, rest) =>
      if defined (String.ofList ('<' :: front)) then some (String.ofList ('<' :: front), rest)
      else none
    | none => none
  | _ => none

theorem nameAt_append {defined : String → Bool} {cs rest : List Char} {name : String}
    (h : nameAt defined cs = some (name, rest)) :
    name.toList ++ rest = cs ∧ defined name = true := by
  unfold nameAt at h
  split at h
  · next cs =>
    split at h
    · next front rest' cut =>
      split at h
      · next isDefined =>
        obtain ⟨rfl, rfl⟩ := Prod.mk.inj (Option.some.inj h)
        exact ⟨by simp [cutAfterClose_append cut], isDefined⟩
      · simp at h
    · simp at h
  · simp at h

theorem length_lt_of_nameAt {defined : String → Bool} {cs rest : List Char} {name : String}
    (h : nameAt defined cs = some (name, rest)) : rest.length < cs.length := by
  unfold nameAt at h
  split at h
  · next cs =>
    split at h
    · next front rest' cut =>
      split at h
      · obtain ⟨rfl, rfl⟩ := by simpa using h
        have := congrArg List.length (cutAfterClose_append cut)
        simp at this ⊢
        omega
      · simp at h
    · simp at h
  · simp at h

/-- The terminal token of a text, if there is any text. -/
def Token.ofText (text : String) : List Token := if text = "" then [] else [.terminal text]

/-- The tokens of a text, after terminal text that has been read already. -/
def scan (defined : String → Bool) (text : String) : List Char → List Token
  | [] => Token.ofText text
  | c :: cs =>
    match _found : nameAt defined (c :: cs) with
    | some (name, rest) => Token.ofText text ++ .nonterminal name :: scan defined "" rest
    | none => scan defined (text.push c) cs
termination_by cs => cs.length
decreasing_by
  · exact length_lt_of_nameAt _found
  · simp

/-- The tokens of an expansion. -/
def Grammar.tokenize (g : Grammar) (expansion : String) : List Token :=
  scan g.defines "" expansion.toList

/-- The characters that tokens stand for. -/
def Token.chars (ts : List Token) : List Char := ts.flatMap fun t => t.text.toList

end PreconditionMining
