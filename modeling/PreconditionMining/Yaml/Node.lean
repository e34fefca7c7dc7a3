/-
# Settings files

A settings file is a document of nested maps and lists, which is read off the
tokens of its text.  A list that belongs to the entry of a map may stand in the
column of the map and then has no beginning and no end of its own.  Between
brackets a key and its value may stand for a map of one entry.

The readers go down within a bound on the number of steps, which the number of
tokens gives: each step that is not the last one for its place takes a token.
-/

import PreconditionMining.Yaml.Scalar
import PreconditionMining.Yaml.Token

namespace PreconditionMining
namespace Yaml

/-- A part of a document. -/
inductive Node
  | plain (text : String)
  | quoted (text : String)
  | list (items : List Node)
  | map (entries : List (String × Node))

namespace Node

/-- Where nothing is written. -/
def nothing : Node := plain ""

/-- The text of a part that can be a key. -/
def key? : Node → Option String
  | plain text => some text
  | quoted text => some text
  | _ => none

mutual

/-- How many maps and lists lie in one another. -/
def depth : Node → Nat
  | plain _ => 0
  | quoted _ => 0
  | list items => depthOfAll items + 1
  | map entries => depthOfEntries entries + 1

/-- How many maps and lists lie in one another in any of some parts. -/
def depthOfAll : List Node → Nat
  | [] => 0
  | n :: ns => max (depth n) (depthOfAll ns)

/-- How many maps and lists lie in one another in any of some entries. -/
def depthOfEntries : List (String × Node) → Nat
  | [] => 0
  | (_, n) :: rest => max (depth n) (depthOfEntries rest)

end

mutual

/-- What a part stands for.  Of several entries with one key the last one counts. -/
def value : Node → Value
  | plain text => plainValue text
  | quoted text => .text text
  | list items => .list (values items)
  | map entries => .ofDictionary (.ofList (fieldValues entries))

/-- What parts stand for. -/
def values : List Node → List Value
  | [] => []
  | n :: ns => value n :: values ns

/-- What the entries of a map stand for. -/
def fieldValues : List (String × Node) → List (String × Value)
  | [] => []
  | (key, n) :: rest => (key, value n) :: fieldValues rest

end

end Node

/-- What was read, and the tokens behind it; nothing where a text is not well formed. -/
abbrev Reading (α : Type) := Option (α × List Token)

/-- Where a part stands: between brackets, as an entry of a list or as a document, or as a key or
a value of a map. -/
inductive Site
  | brackets
  | entry
  | field
deriving DecidableEq

/-- The tokens before which nothing is written for a key or a value of a map. -/
def fieldEnds : List Token := [.key, .value, .blockEnd]

mutual

/-- Reads a part. -/
def node? (site : Site) : Nat → List Token → Reading Node
  | 0, _ => none
  | steps + 1, ts =>
    match ts with
    | .plain text :: ts => some (.plain text, ts)
    | .quoted text :: ts => some (.quoted text, ts)
    | .listStart :: ts => (listItems? true steps ts).map fun (items, ts) => (.list items, ts)
    | .mapStart :: ts => (mapEntries? true steps ts).map fun (entries, ts) => (.map entries, ts)
    | .dash :: _ =>
      if site = .field then
        (fieldItems? steps ts).map fun (items, ts) => (.list items, ts)
      else none
    | .blockListStart :: ts =>
      if site = .brackets then none
      else (blockItems? steps ts).map fun (items, ts) => (.list items, ts)
    | .blockMapStart :: ts =>
      if site = .brackets then none
      else (blockEntries? steps ts).map fun (entries, ts) => (.map entries, ts)
    | _ => none
termination_by structural steps => steps

/-- Reads a part, or nothing before some tokens. -/
def nodeBefore? (site : Site) (ends : List Token) : Nat → List Token → Reading Node
  | 0, _ => none
  | steps + 1, ts =>
    if ts.head?.any ends.contains then some (.nothing, ts) else node? site steps ts
termination_by structural steps => steps

/-- Reads the value of a key, or nothing where there is no colon. -/
def valueBefore? (site : Site) (ends : List Token) : Nat → List Token → Reading Node
  | 0, _ => none
  | steps + 1, ts =>
    match ts with
    | .value :: ts => nodeBefore? site ends steps ts
    | ts => some (.nothing, ts)
termination_by structural steps => steps

/-- Reads the items of a list between brackets, or those after the first one. -/
def listItems? (first : Bool) : Nat → List Token → Reading (List Node)
  | 0, _ => none
  | steps + 1, ts =>
    match first, ts with
    | _, .listEnd :: ts => some ([], ts)
    | false, .comma :: .listEnd :: ts => some ([], ts)
    | true, ts | false, .comma :: ts =>
      match listItem? steps ts with
      | none => none
      | some (item, ts) =>
        (listItems? false steps ts).map fun (items, ts) => (item :: items, ts)
    | false, _ => none
termination_by structural steps => steps

/-- Reads an item of a list between brackets.  A key with its value is a map of one entry; where
there is no key, the token in its place is passed over. -/
def listItem? : Nat → List Token → Reading Node
  | 0, _ => none
  | steps + 1, ts =>
    match ts with
    | .key :: ts =>
      let key :=
        if ts.head?.any [Token.value, .comma, .listEnd].contains then some (.nothing, ts.tail)
        else node? .brackets steps ts
      match key with
      | none => none
      | some (key, ts) =>
        match key.key?, valueBefore? .brackets [.comma, .listEnd] steps ts with
        | some key, some (value, ts) => some (.map [(key, value)], ts)
        | _, _ => none
    | ts => node? .brackets steps ts
termination_by structural steps => steps

/-- Reads the entries of a map between braces, or those after the first one. -/
def mapEntries? (first : Bool) : Nat → List Token → Reading (List (String × Node))
  | 0, _ => none
  | steps + 1, ts =>
    match first, ts with
    | _, .mapEnd :: ts => some ([], ts)
    | false, .comma :: .mapEnd :: ts => some ([], ts)
    | true, ts | false, .comma :: ts =>
      match mapEntry? steps ts with
      | none => none
      | some (entry, ts) =>
        (mapEntries? false steps ts).map fun (entries, ts) => (entry :: entries, ts)
    | false, _ => none
termination_by structural steps => steps

/-- Reads an entry of a map between braces.  An item that is no key has nothing as its value. -/
def mapEntry? : Nat → List Token → Reading (String × Node)
  | 0, _ => none
  | steps + 1, ts =>
    match ts with
    | .key :: ts =>
      match nodeBefore? .brackets [.value, .comma, .mapEnd] steps ts with
      | none => none
      | some (key, ts) =>
        match key.key?, valueBefore? .brackets [.comma, .mapEnd] steps ts with
        | some key, some (value, ts) => some ((key, value), ts)
        | _, _ => none
    | ts =>
      match node? .brackets steps ts with
      | none => none
      | some (key, ts) => key.key?.map fun key => ((key, .nothing), ts)
termination_by structural steps => steps

/-- Reads the items of a list that is nested by columns, up to its end. -/
def blockItems? : Nat → List Token → Reading (List Node)
  | 0, _ => none
  | steps + 1, ts =>
    match ts with
    | .blockEnd :: ts => some ([], ts)
    | .dash :: ts =>
      match nodeBefore? .entry [.dash, .blockEnd] steps ts with
      | none => none
      | some (item, ts) => (blockItems? steps ts).map fun (items, ts) => (item :: items, ts)
    | _ => none
termination_by structural steps => steps

/-- Reads the items of a list that stands in the column of a map. -/
def fieldItems? : Nat → List Token → Reading (List Node)
  | 0, _ => none
  | steps + 1, ts =>
    match ts with
    | .dash :: ts =>
      match nodeBefore? .entry (.dash :: fieldEnds) steps ts with
      | none => none
      | some (item, ts) => (fieldItems? steps ts).map fun (items, ts) => (item :: items, ts)
    | ts => some ([], ts)
termination_by structural steps => steps

/-- Reads the entries of a map that is nested by columns, up to its end. -/
def blockEntries? : Nat → List Token → Reading (List (String × Node))
  | 0, _ => none
  | steps + 1, ts =>
    match ts with
    | .blockEnd :: ts => some ([], ts)
    | .key :: ts =>
      match nodeBefore? .field fieldEnds steps ts with
      | none => none
      | some (key, ts) =>
        match key.key?, valueBefore? .field fieldEnds steps ts with
        | some key, some (value, ts) =>
          (blockEntries? steps ts).map fun (entries, ts) => ((key, value) :: entries, ts)
        | _, _ => none
    | _ => none
termination_by structural steps => steps

end

/-- Reads the document of a file, which has at most one.  A document that is marked may have
nothing in it. -/
def document? (ts : List Token) : Option (Option Node) :=
  let steps := 4 * ts.length + 4
  let read : Reading (Option Node) :=
    match ts with
    | [] => some (none, [])
    | .documentStart :: ts =>
      if ts.head?.all [Token.documentStart, .documentEnd].contains then some (some .nothing, ts)
      else (node? .entry steps ts).map fun (node, ts) => (some node, ts)
    | ts => (node? .entry steps ts).map fun (node, ts) => (some node, ts)
  match read with
  | some (node, ts) => if ts.all (· = .documentEnd) then some node else none
  | none => none

/-- How many maps and lists may lie in one another in a settings file. -/
def deepestNesting : Nat := 128

/-- The settings in a file: a map, or nothing at all. -/
def settings? (text : String) : Option Value :=
  match (Token.ofText? text).bind document? with
  | some none | some (some (.plain "")) => some (.record [])
  | some (some (.map entries)) =>
    if (Node.map entries).depth ≤ deepestNesting then some (Node.map entries).value else none
  | _ => none

end Yaml
end PreconditionMining
