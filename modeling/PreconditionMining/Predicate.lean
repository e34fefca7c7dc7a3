/-
# Sample predicates

A small language of yes-or-no questions about a sample, for constraints and test
bodies that are given as data.  A question looks at the text of a sample or at
its tree; negation, conjunction and disjunction combine questions.

Asked of a bare text, a question about the tree is answered with no.
-/

import PreconditionMining.Tree

namespace PreconditionMining

/-- One question about a sample. -/
inductive Aspect
  | constant (answer : Bool)
  | equals (text : String)
  | contains (text : String)
  | startsWith (text : String)
  | endsWith (text : String)
  /-- The text has more than so many characters. -/
  | longerThan (n : Nat)
  /-- The text is a short number above a bound. -/
  | numberAbove (n : Nat)
  /-- The text is a short even number. -/
  | evenNumber
  /-- The tree has more than so many terminals and nodes. -/
  | largerThan (n : Nat)
  /-- Some node of the tree has a symbol. -/
  | hasNode (symbol : String)
  /-- The tree itself has a symbol. -/
  | hasRoot (symbol : String)
deriving Inhabited

/-- The number that a text of one to nine decimal digits writes. -/
def shortNumber? (s : String) : Option Nat :=
  let cs := s.toList
  if 1 ≤ cs.length ∧ cs.length ≤ 9 ∧ cs.all Char.isDigit then
    some (cs.foldl (fun n c => 10 * n + (c.toNat - '0'.toNat)) 0)
  else none

/-- Whether a text occurs somewhere in another one. -/
def occursIn (x : List Char) : List Char → Bool
  | [] => x.isEmpty
  | c :: cs => x.isPrefixOf (c :: cs) || occursIn x cs

namespace Aspect

/-- The answer about a bare text. -/
def ofText (s : String) : Aspect → Bool
  | constant b => b
  | equals x => s = x
  | contains x => occursIn x.toList s.toList
  | startsWith x => x.toList.isPrefixOf s.toList
  | endsWith x => x.toList.isSuffixOf s.toList
  | longerThan n => n < s.length
  | numberAbove n => (shortNumber? s).any fun k => n < k
  | evenNumber => (shortNumber? s).any fun k => k % 2 = 0
  | largerThan _ | hasNode _ | hasRoot _ => false

/-- The answer about a tree; a question about text is asked of its rendering. -/
def ofTree (t : Tree) : Aspect → Bool
  | largerThan n => n < t.size
  | hasNode symbol => !(t.findAll symbol).isEmpty
  | hasRoot symbol => t.symbol = symbol
  | a => a.ofText t.render

end Aspect

/-- A combination of questions about a sample. -/
inductive Predicate
  | aspect (a : Aspect)
  | negation (p : Predicate)
  | all (ps : List Predicate)
  | any (ps : List Predicate)
deriving Inhabited

namespace Predicate

mutual

/-- The answer, given the answers to the single questions. -/
def eval (answer : Aspect → Bool) : Predicate → Bool
  | aspect a => answer a
  | negation p => !eval answer p
  | all ps => evalAll answer ps
  | any ps => evalAny answer ps

/-- Whether all of a list are answered with yes. -/
def evalAll (answer : Aspect → Bool) : List Predicate → Bool
  | [] => true
  | p :: ps => eval answer p && evalAll answer ps

/-- Whether some of a list is answered with yes. -/
def evalAny (answer : Aspect → Bool) : List Predicate → Bool
  | [] => false
  | p :: ps => eval answer p || evalAny answer ps

end

/-- Whether a predicate holds of a text. -/
def holdsOfText (p : Predicate) (s : String) : Bool := p.eval (Aspect.ofText s)

/-- Whether a predicate holds of a tree. -/
def holdsOfTree (p : Predicate) (t : Tree) : Bool := p.eval (Aspect.ofTree t)

end Predicate

end PreconditionMining
