/-
# Reading data

Reading a value of a type out of free-form data may fail because a datum has
another kind than is wanted, a number is out of range or too wide, a name is none
of the known ones, or a field that has no default is missing.  A failure tells the
way to the datum, by the names of the fields and the numbers of list items.

Whole numbers that 64 bits do not hold are of another kind than those that count
something.

A record is read field by field.  Fields that are not asked for are ignored,
and a missing field takes its default where it has one (`fieldOr`).  Of several
faults the one found first is reported, so each reader asks for its fields in
increasing order of their names.
-/

import PreconditionMining.Data.Numeral
import PreconditionMining.Data.Value

namespace PreconditionMining

/-- What is wrong with a datum. -/
inductive Fault
  | wrongKind
  | outOfRange
  /-- A whole number has more than 64 bits where any datum may stand. -/
  | tooWide
  | unknownName
  | missingField
deriving DecidableEq

/-- A fault, and the way to the datum that has it. -/
structure DecodeError where
  fault : Fault
  path : List String
deriving DecidableEq

/-- What reading a datum comes to. -/
abbrev Decoded (α : Type) := Except DecodeError α

namespace Decode

variable {α : Type}

/-- A fault of the datum itself. -/
def fail (fault : Fault) : Decoded α := .error ⟨fault, []⟩

/-- What is found in a part of a datum: the way to a fault leads through the part. -/
def inside (part : String) : Decoded α → Decoded α
  | .ok a => .ok a
  | .error e => .error ⟨e.fault, part :: e.path⟩

/-- A number from 0 up to, but not including, a limit. -/
def natural (limit : Nat) : Value → Decoded Nat
  | .integer n =>
    if 0 ≤ n ∧ n < limit then .ok n.toNat
    else if Numeral.fits 64 n then fail .outOfRange
    else fail .wrongKind
  | _ => fail .wrongKind

/-- A number of 64 bits. -/
def word64 : Value → Decoded Nat := natural (Nat.pow 2 64)

/-- A number of 32 bits. -/
def word32 : Value → Decoded Nat := natural (Nat.pow 2 32)

/-- A truth value. -/
def bool : Value → Decoded Bool
  | .bool b => .ok b
  | _ => fail .wrongKind

/-- A text. -/
def text : Value → Decoded String
  | .text s => .ok s
  | .character c => .ok c.toString
  | _ => fail .wrongKind

/-- Something that may be left out: nothing stands for its absence. -/
def optional (decode : Value → Decoded α) : Value → Decoded (Option α)
  | .null => .ok none
  | v => (decode v).map some

/-- The items of a list, numbered from `i` on. -/
def itemsFrom (decode : Value → Decoded α) (i : Nat) : List Value → Decoded (List α)
  | [] => .ok []
  | v :: vs =>
    match inside (toString i) (decode v) with
    | .error e => .error e
    | .ok a => (itemsFrom decode (i + 1) vs).map (a :: ·)

/-- A list. -/
def list (decode : Value → Decoded α) : Value → Decoded (List α)
  | .list vs => itemsFrom decode 0 vs
  | _ => fail .wrongKind

/-- The entries of a record. -/
def entriesOf (decode : Value → Decoded α) :
    List (String × Value) → Decoded (List (String × α))
  | [] => .ok []
  | (k, v) :: rest =>
    match inside k (decode v) with
    | .error e => .error e
    | .ok a => (entriesOf decode rest).map ((k, a) :: ·)

/-- A dictionary, written as a record. -/
def dictionary (decode : Value → Decoded α) : Value → Decoded (Dictionary α)
  | .record fields => (entriesOf decode fields).map .ofList
  | _ => fail .wrongKind

/-- The number of a name among others, in place of the name. -/
def numbered (names : List String) : List String → List String
  | [] => []
  | name :: path => toString (names.idxOf name) :: path

/-- Reads a structure with given field names by its fields: a record, or a list of the first
values in the order of the names, in which a fault is found at the number of its item. -/
def fieldwise (names : List String) (read : List (String × Value) → Decoded α) :
    Value → Decoded α
  | .record fields => read fields
  | .list values =>
    match read (names.zip values) with
    | .error e => .error ⟨e.fault, numbered names e.path⟩
    | .ok a => .ok a
  | _ => fail .wrongKind

/-- A field that must be there. -/
def field (fields : List (String × Value)) (name : String) (decode : Value → Decoded α) :
    Decoded α :=
  match Value.field? name fields with
  | none => fail .missingField
  | some v => inside name (decode v)

/-- A field that takes a default where it is missing. -/
def fieldOr (fields : List (String × Value)) (name : String) (default : α)
    (decode : Value → Decoded α) : Decoded α :=
  match Value.field? name fields with
  | none => .ok default
  | some v => inside name (decode v)

/-- One of some things, by its name: a text, or a record of nothing with this name. -/
def oneOf (things : List (String × α)) : Value → Decoded α
  | .text name =>
    match Dictionary.lookup name things with
    | some a => .ok a
    | none => fail .unknownName
  | .record [(name, content)] =>
    inside name <|
      match Dictionary.lookup name things, content with
      | some a, .null => .ok a
      | some _, _ => fail .wrongKind
      | none, _ => fail .unknownName
  | _ => fail .wrongKind

end Decode

end PreconditionMining
