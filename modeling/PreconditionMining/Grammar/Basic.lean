/-
# Grammars

A grammar gives each of its nonterminals a list of alternative expansions, which
are plain texts.  A name stands in angle brackets; each nonterminal has at least
one alternative; and there is a start symbol.  The type holds these three facts,
so a grammar exists only where `ofRules` has found no defect.

`ofRules` looks at the rules in the order of their names and reports the first
defect (`firstDefect_eq_none_iff`); a missing start symbol is reported when all
rules are in order.
-/

import PreconditionMining.Dictionary

namespace PreconditionMining

/-- Why a set of rules is no grammar. -/
inductive GrammarError
  /-- There is no rule for the start symbol. -/
  | missingStart (symbol : String)
  /-- A nonterminal has no alternatives. -/
  | emptyRule (nonterminal : String)
  /-- The name of a nonterminal is not in angle brackets. -/
  | invalidNonterminal (name : String)
deriving DecidableEq

/-- The name of a defect. -/
def GrammarError.name : GrammarError → String
  | .missingStart _ => "MissingStart"
  | .emptyRule _ => "EmptyRule"
  | .invalidNonterminal _ => "InvalidNonterminal"

/-- The text of a defect. -/
def GrammarError.message : GrammarError → String
  | .missingStart s => "Grammar has no start symbol " ++ s
  | .emptyRule n => "Nonterminal " ++ n ++ " has no alternatives"
  | .invalidNonterminal n =>
    "Invalid nonterminal name: " ++ n ++ ". Must be enclosed in angle brackets"

/-- Whether a name stands in angle brackets, with something between them. -/
def isBracketed (name : String) : Bool :=
  2 < name.utf8ByteSize && name.toList.head? == some '<' && name.toList.getLast? == some '>'

/-- The symbol that derivations begin with. -/
def startSymbol : String := "<start>"

/-- The rules of a grammar: for each nonterminal its alternatives. -/
structure Grammar where
  rules : Dictionary (List String)
  bracketed : ∀ r ∈ rules.entries, isBracketed r.1 = true
  nonempty : ∀ r ∈ rules.entries, r.2 ≠ []
  hasStart : rules.contains startSymbol = true

namespace Grammar

/-- The defect of the first rule that has one. -/
def firstDefect : List (String × List String) → Option GrammarError
  | [] => none
  | (name, alternatives) :: rest =>
    if !isBracketed name then some (.invalidNonterminal name)
    else if alternatives.isEmpty then some (.emptyRule name)
    else firstDefect rest

theorem firstDefect_eq_none_iff {rules : List (String × List String)} :
    firstDefect rules = none ↔ ∀ r ∈ rules, isBracketed r.1 = true ∧ r.2 ≠ [] := by
  induction rules with
  | nil => simp [firstDefect]
  | cons r rest ih =>
    obtain ⟨name, alternatives⟩ := r
    simp only [firstDefect, List.mem_cons, forall_eq_or_imp, ← ih]
    by_cases named : isBracketed name = true
    · cases alternatives <;> simp [named]
    · simp [named]

/-- The grammar with given rules, or the defect that they have. -/
def ofRules (rules : Dictionary (List String)) : Except GrammarError Grammar :=
  match sound : firstDefect rules.entries with
  | some e => .error e
  | none =>
    if start : rules.contains startSymbol then
      .ok ⟨rules, fun r h => (firstDefect_eq_none_iff.1 sound r h).1,
        fun r h => (firstDefect_eq_none_iff.1 sound r h).2, start⟩
    else .error (.missingStart startSymbol)

/-- The grammar of a list of rules; a later rule replaces an earlier one of its name. -/
def ofList (rules : List (String × List String)) : Except GrammarError Grammar :=
  ofRules (Dictionary.ofList rules)

/-- The alternatives of a nonterminal. -/
def alternatives? (g : Grammar) (nonterminal : String) : Option (List String) :=
  g.rules.find? nonterminal

/-- Whether the grammar defines a nonterminal. -/
def defines (g : Grammar) (name : String) : Bool := g.rules.contains name

/-- The nonterminals in increasing order. -/
def nonterminals (g : Grammar) : List String := g.rules.keys

/-- The grammar is made of exactly the rules that it was asked of. -/
theorem rules_of_ofRules {rules : Dictionary (List String)} {g : Grammar}
    (h : ofRules rules = .ok g) : g.rules = rules := by
  unfold ofRules at h
  split at h
  · simp at h
  · split at h
    · exact (Except.ok.inj h) ▸ rfl
    · simp at h

/-- **The rules of a grammar are accepted.** -/
theorem ofRules_rules (g : Grammar) : ofRules g.rules = .ok g := by
  have sound : firstDefect g.rules.entries = none :=
    firstDefect_eq_none_iff.2 fun r h => ⟨g.bracketed r h, g.nonempty r h⟩
  unfold ofRules
  split
  · next e h => simp [sound] at h
  · simp [g.hasStart]

end Grammar

end PreconditionMining
