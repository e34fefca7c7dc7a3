/-
# Outlines

An outline shows the build of a value on one line, for those who look inside: the
name of a structure and its fields, the items of a list, the entries of a map.
An outline of a structure may leave fields out and then ends in two dots.
-/

import PreconditionMining.Text.Quoted

namespace PreconditionMining

/-- The build of a value. -/
inductive Outline
  /-- A word that stands for itself. -/
  | word (text : String)
  /-- A text in quotes. -/
  | text (s : String)
  /-- A form with a content. -/
  | form (name : String) (content : Outline)
  | list (items : List Outline)
  | set (items : List Outline)
  | map (entries : List (String × Outline))
  | record (name : String) (complete : Bool) (fields : List (String × Outline))

namespace Outline

/-- Something that may be absent. -/
def optional {α : Type} (outline : α → Outline) : Option α → Outline
  | none => word "None"
  | some a => form "Some" (outline a)

/-- A truth value. -/
def bool (b : Bool) : Outline := word (if b then "true" else "false")

/-- A whole number. -/
def natural (n : Nat) : Outline := word (toString n)

mutual

/-- Writes an outline. -/
def write : Outline → String
  | word t => t
  | text s => quoted s
  | form name content => name ++ "(" ++ write content ++ ")"
  | list items => "[" ++ String.intercalate ", " (writeItems items) ++ "]"
  | set items => "\x7b" ++ String.intercalate ", " (writeItems items) ++ "\x7d"
  | map entries => "\x7b" ++ String.intercalate ", " (writeEntries entries) ++ "\x7d"
  | record name complete fields =>
    let parts := writeFields fields ++ if complete then [] else [".."]
    if parts.isEmpty then name
    else name ++ " \x7b " ++ String.intercalate ", " parts ++ " \x7d"

/-- Writes items. -/
def writeItems : List Outline → List String
  | [] => []
  | o :: os => write o :: writeItems os

/-- Writes entries of a map, whose keys are texts. -/
def writeEntries : List (String × Outline) → List String
  | [] => []
  | (key, o) :: rest => (quoted key ++ ": " ++ write o) :: writeEntries rest

/-- Writes fields of a structure, whose names are words. -/
def writeFields : List (String × Outline) → List String
  | [] => []
  | (name, o) :: rest => (name ++ ": " ++ write o) :: writeFields rest

end

end Outline

end PreconditionMining
