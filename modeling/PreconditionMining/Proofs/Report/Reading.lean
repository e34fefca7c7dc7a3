/-
# Reading a dump back

A dump shows a block for each result and tells blocks and paragraphs apart by empty lines
alone.  Seen as lines, a block is a line with the name of the test in brackets and, for each
precondition, an empty line and one with its text; and two empty lines stand before each
further block (`dumpLines`).  If no name has a line feed in it and no text of a precondition
is empty or has one, then these are the lines of the dump (`splitOn_dump`), and an empty line
followed by another one can only be the end of a block.  So the blocks are read off the lines
(`sections`), whatever brackets stand in the names and texts, and give back what was dumped
(`read_dump`).

Dumps that look alike have therefore the same names and preconditions in them:
`dump_unambiguous`.
-/

import PreconditionMining.Proofs.Suite.Agreement
import PreconditionMining.Report.Dump

namespace PreconditionMining

/-- Lists with a separator between them: the first one, and each further one behind a separator. -/
theorem intercalate_cons {α : Type} (separator l : List α) (ls : List (List α)) :
    separator.intercalate (l :: ls) = l ++ ls.flatMap (separator ++ ·) := by
  induction ls generalizing l with
  | nil => simp
  | cons l' ls ih => rw [List.intercalate_cons_cons, ih, List.flatMap_cons, List.append_assoc,
      List.append_assoc]

namespace TestResult

/-- A result whose block has no other line feeds than those around its paragraphs, and no empty
paragraph. -/
structure Plain (r : TestResult) : Prop where
  name : '\n' ∉ r.test.name.toList
  preconditions : ∀ f ∈ r.preconditions, f.text ≠ "" ∧ '\n' ∉ f.text.toList

theorem Plain.text_ne_empty {r : TestResult} (plain : r.Plain) :
    ∀ f ∈ r.preconditions, f.text ≠ "" :=
  fun f mem => (plain.preconditions f mem).1

/-- What a dump shows of a result. -/
def shown (r : TestResult) : String × List String := (r.test.name, r.preconditions.map Formula.text)

/-- The first line of a block. -/
def headerLine (r : TestResult) : List Char := '[' :: (r.test.name.toList ++ [']'])

/-- The lines of paragraphs, each below an empty one. -/
def paragraphLines (fs : List Formula) : List (List Char) := fs.flatMap fun f => [[], f.text.toList]

/-- The lines of blocks, each below two empty ones. -/
def furtherLines (results : List TestResult) : List (List Char) :=
  results.flatMap fun r => [] :: [] :: r.headerLine :: paragraphLines r.preconditions

/-- The lines of a dump. -/
def dumpLines (r : TestResult) (rest : List TestResult) : List (List Char) :=
  r.headerLine :: (paragraphLines r.preconditions ++ furtherLines rest)

/-- A block is its lines, each but the first behind a line feed. -/
theorem toList_block (r : TestResult) :
    r.block.toList = r.headerLine ++ (paragraphLines r.preconditions).flatMap ('\n' :: ·) := by
  have header : ("[" ++ r.test.name ++ "]").toList = r.headerLine := by
    simp [headerLine]
  have paragraphs : (String.join (r.preconditions.map fun f => "\n\n" ++ f.text)).toList =
      (paragraphLines r.preconditions).flatMap ('\n' :: ·) := by
    simp [paragraphLines, List.flatMap_map, List.flatMap_assoc]
  rw [block, String.toList_append, header, paragraphs]

/-- **A dump is its lines,** with a line feed between any two. -/
theorem toList_dump (r : TestResult) (rest : List TestResult) :
    (dump (r :: rest)).toList = ['\n'].intercalate (dumpLines r rest) := by
  have further : (rest.map fun r => r.block.toList).flatMap ("\n\n\n".toList ++ ·) =
      (furtherLines rest).flatMap ('\n' :: ·) := by
    simp [furtherLines, List.flatMap_map, List.flatMap_assoc, toList_block]
  rw [dump, String.toList_intercalate, List.map_cons, List.map_cons, List.map_map, intercalate_cons,
    toList_block, dumpLines, intercalate_cons, List.flatMap_append, List.append_assoc]
  exact congrArg _ (congrArg _ further)

theorem notMem_headerLine {r : TestResult} (plain : r.Plain) : '\n' ∉ r.headerLine := by
  simp [headerLine, plain.name]

theorem notMem_paragraphLines {r : TestResult} (plain : r.Plain) :
    ∀ l ∈ paragraphLines r.preconditions, '\n' ∉ l := by
  intro l mem
  obtain ⟨f, stored, mem⟩ := List.mem_flatMap.1 mem
  rcases List.mem_cons.1 mem with rfl | mem
  · exact List.not_mem_nil
  · obtain rfl := List.mem_singleton.1 mem
    exact (plain.preconditions f stored).2

/-- No line of a plain result has a line feed in it. -/
theorem notMem_dumpLines {r : TestResult} {rest : List TestResult}
    (plain : ∀ r' ∈ r :: rest, r'.Plain) : ∀ l ∈ dumpLines r rest, '\n' ∉ l := by
  obtain ⟨first, later⟩ := List.forall_mem_cons.1 plain
  refine List.forall_mem_cons.2 ⟨notMem_headerLine first, List.forall_mem_append.2
    ⟨notMem_paragraphLines first, fun l mem => ?_⟩⟩
  obtain ⟨r', stored, mem⟩ := List.mem_flatMap.1 mem
  simp only [List.mem_cons] at mem
  rcases mem with rfl | rfl | rfl | mem
  · exact List.not_mem_nil
  · exact List.not_mem_nil
  · exact notMem_headerLine (later r' stored)
  · exact notMem_paragraphLines (later r' stored) l mem

/-- **The lines of a dump can be told apart.** -/
theorem splitOn_dump {r : TestResult} {rest : List TestResult}
    (plain : ∀ r' ∈ r :: rest, r'.Plain) :
    (dump (r :: rest)).toList.splitOn '\n' = dumpLines r rest := by
  rw [toList_dump]
  exact List.splitOn_intercalate '\n' (notMem_dumpLines plain) (List.cons_ne_nil _ _)

/-- Reads the lines below the first one of a block: its paragraphs, and the further blocks. -/
def sections : List (List Char) → List String × List (String × List String)
  | [] :: [] :: header :: rest =>
    ([], (String.ofList header.tail.dropLast, (sections rest).1) :: (sections rest).2)
  | [] :: paragraph :: rest => (String.ofList paragraph :: (sections rest).1, (sections rest).2)
  | _ => ([], [])

/-- Reads a dump: the names and the preconditions in it. -/
def read (text : String) : List (String × List String) :=
  match text.toList.splitOn '\n' with
  | header :: rest =>
    if header = [] then []
    else (String.ofList header.tail.dropLast, (sections rest).1) :: (sections rest).2
  | [] => []

theorem name_headerLine (r : TestResult) :
    String.ofList r.headerLine.tail.dropLast = r.test.name := by
  rw [headerLine, List.tail_cons, List.dropLast_concat, String.ofList_toList]

/-- Paragraphs are read up to the first line that is not one. -/
theorem sections_paragraphLines {fs : List Formula} (plain : ∀ f ∈ fs, f.text ≠ "")
    (rest : List (List Char)) :
    sections (paragraphLines fs ++ rest) =
      (fs.map Formula.text ++ (sections rest).1, (sections rest).2) := by
  induction fs with
  | nil => rfl
  | cons f fs ih =>
    obtain ⟨nonempty, later⟩ := List.forall_mem_cons.1 plain
    obtain ⟨c, cs, spelled⟩ := List.exists_cons_of_ne_nil
      (mt String.toList_eq_nil_iff.1 nonempty)
    have read : sections ([] :: f.text.toList :: (paragraphLines fs ++ rest)) =
        (f.text :: (sections (paragraphLines fs ++ rest)).1,
          (sections (paragraphLines fs ++ rest)).2) := by
      rw [← String.ofList_toList (s := f.text), spelled, String.toList_ofList]
      rfl
    rw [ih later] at read
    exact read

/-- The lines below the first one of a dump are read as they were dumped: two empty lines end a
block. -/
theorem sections_dumpLines {r : TestResult} {rest : List TestResult}
    (plain : ∀ r' ∈ r :: rest, r'.Plain) :
    sections (paragraphLines r.preconditions ++ furtherLines rest) =
      (r.preconditions.map Formula.text, rest.map shown) := by
  induction rest generalizing r with
  | nil =>
    have first : r.Plain := plain r (List.mem_cons_self ..)
    rw [sections_paragraphLines first.text_ne_empty]
    exact congrArg (·, []) (List.append_nil _)
  | cons r' rest ih =>
    obtain ⟨first, later⟩ := List.forall_mem_cons.1 plain
    have split : furtherLines (r' :: rest) =
        [] :: [] :: r'.headerLine :: (paragraphLines r'.preconditions ++ furtherLines rest) := rfl
    rw [sections_paragraphLines first.text_ne_empty, split, sections, ih later, name_headerLine,
      List.append_nil]
    rfl

/-- **What was dumped is read back.** -/
theorem read_dump {results : List TestResult} (plain : ∀ r ∈ results, r.Plain) :
    read (dump results) = results.map shown := by
  cases results with
  | nil => rfl
  | cons r rest =>
    rw [read, splitOn_dump plain, dumpLines]
    simp only [sections_dumpLines plain, name_headerLine]
    rfl

/-- **A dump is unambiguous.**  Let two lists of results be plain: no name of a test has a line feed
in it, and each precondition is written as a text that is not empty and has no line feed either.  If
their dumps are the same text, then there are as many results in one list as in the other, and those
in the same place have the same name and preconditions that are written alike. -/
theorem dump_unambiguous {results results' : List TestResult} (plain : ∀ r ∈ results, r.Plain)
    (plain' : ∀ r ∈ results', r.Plain) (same : dump results = dump results') :
    results.length = results'.length ∧
      ∀ (i : Nat) (r r' : TestResult), results[i]? = some r → results'[i]? = some r' →
        r.test.name = r'.test.name ∧
          r.preconditions.map Formula.text = r'.preconditions.map Formula.text := by
  have alike : results.map shown = results'.map shown := by
    rw [← read_dump plain, same, read_dump plain']
  refine ⟨by simpa using congrArg List.length alike, fun i r r' at_i at_i' => ?_⟩
  have shown_eq := congrArg (·[i]?) alike
  simp only [List.getElem?_map, at_i, at_i', Option.map_some, Option.some.injEq] at shown_eq
  exact Prod.mk.inj shown_eq

/-- A name in brackets, and an atom in parentheses. -/
def atomResults : List TestResult :=
  [⟨{ isLetterA with name := "a]" }, [.atom "(x)", .atom "[b]"], 1⟩, ⟨isLetterA, [], 3⟩]

/-- The same with a conjunction of one atom, and other numbers of attempts. -/
def conjunctionResults : List TestResult :=
  [⟨{ isLetterA with name := "a]" }, [.all [.atom "x"], .atom "[b]"], 2⟩, ⟨isLetterA, [], 1⟩]

/-- The dumps of the two lists are the same, and so are the names and texts in them. -/
theorem dump_unambiguous_atoms :
    (∀ r ∈ atomResults, r.Plain) ∧ (∀ r ∈ conjunctionResults, r.Plain) ∧
      dump atomResults = dump conjunctionResults ∧
      (Formula.atom "(x)").text = (Formula.all [.atom "x"]).text := by
  have plain {first : Formula} (text : first.text = "(x)") (n : Nat) :
      Plain ⟨{ isLetterA with name := "a]" }, [first, .atom "[b]"], n⟩ := by
    have name : '\n' ∉ "a]".toList := by decide
    refine ⟨name, List.forall_mem_cons.2 ⟨?_, List.forall_mem_singleton.2 (by decide)⟩⟩
    rw [text]
    decide
  have bare (n : Nat) : Plain ⟨isLetterA, [], n⟩ := by
    have name : '\n' ∉ "letter".toList := by decide
    exact ⟨name, fun _ none => by cases none⟩
  have atoms : ∀ r ∈ atomResults, r.Plain :=
    List.forall_mem_cons.2 ⟨plain rfl 1, List.forall_mem_singleton.2 (bare 3)⟩
  have conjunctions : ∀ r ∈ conjunctionResults, r.Plain :=
    List.forall_mem_cons.2 ⟨plain (by decide) 2, List.forall_mem_singleton.2 (bare 1)⟩
  have same : dump atomResults = dump conjunctionResults := by decide +kernel
  obtain ⟨-, each⟩ := dump_unambiguous atoms conjunctions same
  have texts := (each 0 _ _ rfl rfl).2
  exact ⟨atoms, conjunctions, same, (List.cons.inj texts).1⟩

end TestResult
end PreconditionMining
