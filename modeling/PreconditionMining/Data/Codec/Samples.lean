/-
# Samples as data

Derivation trees, formulas, pools and grammars as free-form data, and back.  A
tree or formula is a record with one field, whose name tells which of its two
forms it has.

`Tree.decode_encode` and its companions say that what was written is read back
as it was.
-/

import PreconditionMining.Data.Decode
import PreconditionMining.Formula
import PreconditionMining.Grammar.Basic
import PreconditionMining.Pools

namespace PreconditionMining

namespace Tree

mutual

/-- A tree as data. -/
def encode : Tree → Value
  | terminal t => .record [("terminal", .text t)]
  | node s cs =>
    .record [("node", .record [("children", .list (encodeAll cs)), ("symbol", .text s)])]

/-- Trees as data. -/
def encodeAll : List Tree → List Value
  | [] => []
  | c :: cs => encode c :: encodeAll cs

end

mutual

/-- Reads a tree. -/
def decode : Value → Decoded Tree
  | .record [(form, v)] =>
    if form = "terminal" then Decode.inside form ((Decode.text v).map terminal)
    else if form = "node" then Decode.inside form (decodeNode v)
    else Decode.fail .unknownName
  | _ => Decode.fail .wrongKind

/-- Reads the content of a node. -/
def decodeNode : Value → Decoded Tree
  | .record fields =>
    match decodeFields fields with
    | .error e => .error e
    | .ok (some s, some cs) => .ok (node s cs)
    | .ok _ => Decode.fail .missingField
  | _ => Decode.fail .wrongKind

/-- Reads the symbol and the children among fields, as far as they are there. -/
def decodeFields : List (String × Value) → Decoded (Option String × Option (List Tree))
  | [] => .ok (none, none)
  | (name, v) :: rest =>
    match decodeFields rest with
    | .error e => .error e
    | .ok (s, cs) =>
      if name = "symbol" then
        Decode.inside name ((Decode.text v).map fun t => (s.or (some t), cs))
      else if name = "children" then
        Decode.inside name ((decodeChildren v).map fun ts => (s, cs.or (some ts)))
      else .ok (s, cs)

/-- Reads a list of trees. -/
def decodeChildren : Value → Decoded (List Tree)
  | .list vs => decodeAll vs
  | _ => Decode.fail .wrongKind

/-- Reads trees. -/
def decodeAll : List Value → Decoded (List Tree)
  | [] => .ok []
  | v :: vs =>
    match decode v with
    | .error e => .error e
    | .ok t => (decodeAll vs).map (t :: ·)

end

mutual

/-- **A written tree is read back.** -/
theorem decode_encode : ∀ t : Tree, decode (encode t) = .ok t
  | terminal t => rfl
  | node s cs => by
    simp [encode, decode, decodeNode, decodeFields, decodeChildren, Decode.text, Decode.inside,
      decodeAll_encodeAll cs, Except.map]

theorem decodeAll_encodeAll : ∀ cs : List Tree, decodeAll (encodeAll cs) = .ok cs
  | [] => rfl
  | c :: cs => by
    simp [encodeAll, decodeAll, decode_encode c, decodeAll_encodeAll cs, Except.map]

end

end Tree

namespace Formula

mutual

/-- A formula as data. -/
def encode : Formula → Value
  | atom t => .record [("atom", .text t)]
  | all parts => .record [("and", .list (encodeAll parts))]

/-- Formulas as data. -/
def encodeAll : List Formula → List Value
  | [] => []
  | f :: fs => encode f :: encodeAll fs

end

mutual

/-- Reads a formula. -/
def decode : Value → Decoded Formula
  | .record [(form, v)] =>
    if form = "atom" then Decode.inside form ((Decode.text v).map atom)
    else if form = "and" then Decode.inside form ((decodeParts v).map all)
    else Decode.fail .unknownName
  | _ => Decode.fail .wrongKind

/-- Reads the parts of a conjunction. -/
def decodeParts : Value → Decoded (List Formula)
  | .list vs => decodeAll vs
  | _ => Decode.fail .wrongKind

/-- Reads formulas. -/
def decodeAll : List Value → Decoded (List Formula)
  | [] => .ok []
  | v :: vs =>
    match decode v with
    | .error e => .error e
    | .ok f => (decodeAll vs).map (f :: ·)

end

mutual

/-- **A written formula is read back.** -/
theorem decode_encode : ∀ f : Formula, decode (encode f) = .ok f
  | atom t => rfl
  | all parts => by
    simp [encode, decode, decodeParts, Decode.inside, decodeAll_encodeAll parts, Except.map]

theorem decodeAll_encodeAll : ∀ fs : List Formula, decodeAll (encodeAll fs) = .ok fs
  | [] => rfl
  | f :: fs => by
    simp [encodeAll, decodeAll, decode_encode f, decodeAll_encodeAll fs, Except.map]

end

end Formula

namespace PoolSizes

/-- The sizes as data. -/
def encode (s : PoolSizes) : Value :=
  .record [("negative", .integer s.negative), ("positive", .integer s.positive)]

/-- Reads sizes. -/
def decode : Value → Decoded PoolSizes :=
  Decode.fieldwise ["positive", "negative"] fun fields => do
    let negative ← Decode.field fields "negative" Decode.word64
    let positive ← Decode.field fields "positive" Decode.word64
    return ⟨positive, negative⟩

end PoolSizes

namespace Pools

/-- Pools as data. -/
def encode (p : Pools) : Value :=
  .record [("negative", .list (Tree.encodeAll p.negative)),
    ("positive", .list (Tree.encodeAll p.positive))]

/-- Reads pools. -/
def decode : Value → Decoded Pools :=
  Decode.fieldwise ["positive", "negative"] fun fields => do
    let negative ← Decode.field fields "negative" Tree.decodeChildren
    let positive ← Decode.field fields "positive" Tree.decodeChildren
    return ⟨positive, negative⟩

/-- **Written pools are read back.** -/
theorem decode_encode (p : Pools) : decode (encode p) = .ok p := by
  simp [encode, decode, Decode.fieldwise, Decode.field, Value.field?, Dictionary.lookup,
    Tree.decodeChildren, Tree.decodeAll_encodeAll, Decode.inside, bind, Except.bind, pure,
    Except.pure]

end Pools

namespace Grammar

/-- The rules of a grammar as data. -/
def encode (g : Grammar) : Value :=
  .record (g.rules.entries.map fun (n, alternatives) => (n, .list (alternatives.map .text)))

/-- Reads rules, which need not be those of a grammar. -/
def decodeRules (v : Value) : Decoded (Dictionary (List String)) :=
  Decode.dictionary (Decode.list Decode.text) v

end Grammar

/-- What reading a grammar comes to: data of another form, or rules with a defect. -/
inductive GrammarDecodeError
  | form (error : DecodeError)
  | defect (error : GrammarError)

/-- Reads a grammar. -/
def Grammar.decode (v : Value) : Except GrammarDecodeError Grammar :=
  match Grammar.decodeRules v with
  | .error e => .error (.form e)
  | .ok rules =>
    match Grammar.ofRules rules with
    | .error e => .error (.defect e)
    | .ok g => .ok g

end PreconditionMining
