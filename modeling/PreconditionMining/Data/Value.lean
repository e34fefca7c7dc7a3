/-
# Free-form data

Settings carry a part that the library only hands on, and settings as a whole
are read from files whose content may have any shape.  Both are values of one
type: nothing, a truth value, a number, a text, a list, or a record of named
values.

A whole number and a floating-point number are different values even where they
denote the same number, because a setting that counts something accepts `1` and
not `1.0`.
-/

import PreconditionMining.Dictionary

namespace PreconditionMining

/-- A datum of any shape. -/
inductive Value
  | null
  | bool (b : Bool)
  | integer (n : Int)
  | number (x : Float)
  /-- A single character, which is a text but names nothing. -/
  | character (c : Char)
  | text (s : String)
  | list (items : List Value)
  | record (fields : List (String × Value))

namespace Value

instance : Inhabited Value := ⟨null⟩

/-- The record with the entries of a dictionary. -/
def ofDictionary (d : Dictionary Value) : Value := record d.entries

/-- The value of a name in a list of named values: the first one counts. -/
def field? (name : String) (fields : List (String × Value)) : Option Value :=
  Dictionary.lookup name fields

/-- Changes a named part of a structure with given field names, which is a record, or a list in
the order of the names. -/
def mapField (names : List String) (name : String) (change : Value → Value) : Value → Value
  | record fields => record (fields.map fun (k, v) => (k, if k = name then change v else v))
  | list items => list (items.mapIdx fun i v => if names[i]? = some name then change v else v)
  | v => v

end Value

end PreconditionMining
