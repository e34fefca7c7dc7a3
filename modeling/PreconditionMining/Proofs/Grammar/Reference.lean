/-
# Which nonterminals an expansion can refer to

Whether a name stands in angle brackets is asked twice.  Of the rules of a grammar it is
asked by the ends of the name: it begins with `<`, ends with `>`, and there is something
between them (`isBracketed`).  In an expansion it is asked of what stands there up to the
next `>` (`IsTag`).  The two agree where the name has no `>` but the one at its end
(`isTag_iff_count`); another `<` does no harm.

A defined name of the second kind is one token wherever its text is all there is to read
(`Grammar.tokenize_of_isTag`), and only names of that kind are ever tokens
(`Grammar.isTag_of_mem_tokenize`).  `Grammar.refers_iff` joins both: the defined names with a
second `>` are exactly those that no expansion refers to.
-/

import PreconditionMining.Proofs.Grammar.Tokenization

namespace PreconditionMining

/-- A name between angle brackets consists of these and of what stands between them. -/
theorem exists_inner_of_isBracketed {name : String} (bracketed : isBracketed name = true) :
    ∃ inner, name.toList = '<' :: (inner ++ ['>']) := by
  simp only [isBracketed, Bool.and_eq_true, beq_iff_eq] at bracketed
  obtain ⟨⟨-, first⟩, last⟩ := bracketed
  obtain ⟨rest, spelled⟩ := List.head?_eq_some_iff.1 first
  rw [spelled] at last ⊢
  cases rest with
  | nil => cases last
  | cons c rest =>
    rw [List.getLast?_cons_cons] at last
    obtain ⟨inner, split⟩ := List.getLast?_eq_some_iff.1 last
    exact ⟨inner, by rw [split]⟩

/-- **The two notions of a name in brackets agree** on the names that close only once. -/
theorem isTag_iff_count {name : String} (bracketed : isBracketed name = true) :
    IsTag name ↔ name.toList.count '>' = 1 := by
  obtain ⟨inner, spelled⟩ := exists_inner_of_isBracketed bracketed
  have closings : name.toList.count '>' = inner.count '>' + 1 := by
    rw [spelled, List.count_cons_of_ne (by decide), List.count_append, List.count_singleton_self]
  rw [closings, Nat.add_eq_right, List.count_eq_zero]
  constructor
  · rintro ⟨inner', fresh, spelled'⟩
    rw [spelled] at spelled'
    obtain ⟨-, same⟩ := List.cons.inj spelled'
    rwa [List.append_cancel_right same]
  · exact fun fresh => ⟨inner, fresh, spelled⟩

namespace Grammar

variable (g : Grammar) {name : String}

/-- The names that a grammar defines stand in angle brackets. -/
theorem isBracketed_of_defines (defined : g.defines name = true) : isBracketed name = true := by
  obtain ⟨rule, mem, rfl⟩ := List.mem_map.1 (g.rules.contains_iff_mem_keys.1 defined)
  exact g.bracketed rule mem

/-- The tokens of an expansion are a reading of it. -/
theorem reading_tokenize (expansion : String) :
    Reading g.defines expansion.toList (g.tokenize expansion) :=
  reading_scan g.defines "" expansion.toList fun front back _ _ split => by simp at split

/-- **A defined name that closes once is one token** of its text. -/
theorem tokenize_of_isTag (isTag : IsTag name) (defined : g.defines name = true) :
    g.tokenize name = [.nonterminal name] := by
  have alone : Reading g.defines name.toList [.nonterminal name] := by
    simpa using Reading.nil.cons_nonterminal isTag defined
  exact (g.reading_tokenize name).unique alone

/-- **Only names that close once are tokens** of an expansion. -/
theorem isTag_of_mem_tokenize {expansion : String}
    (mem : .nonterminal name ∈ g.tokenize expansion) : IsTag name :=
  ((g.reading_tokenize expansion).named name mem).1

/-- **An expansion can refer to a nonterminal exactly when its name closes once.**  For each grammar
and each name that it defines, the text of the name is read as that nonterminal alone if the name
has one `>`, its last character; if it has more, neither this text nor any other expansion has the
nonterminal among its tokens. -/
theorem refers_iff (defined : g.defines name = true) :
    (g.tokenize name = [.nonterminal name] ↔ name.toList.count '>' = 1) ∧
      ((∃ expansion, .nonterminal name ∈ g.tokenize expansion) ↔ name.toList.count '>' = 1) := by
  have bracketed := g.isBracketed_of_defines defined
  rw [← isTag_iff_count bracketed]
  have once : IsTag name → g.tokenize name = [.nonterminal name] :=
    fun isTag => g.tokenize_of_isTag isTag defined
  refine ⟨⟨fun alone => ?_, once⟩, ⟨?_, fun isTag => ?_⟩⟩
  · exact g.isTag_of_mem_tokenize (alone ▸ List.mem_singleton_self _)
  · rintro ⟨expansion, mem⟩
    exact g.isTag_of_mem_tokenize mem
  · exact ⟨name, once isTag ▸ List.mem_singleton_self _⟩

/-- A grammar in which the name of one nonterminal closes twice. -/
def twiceClosed : Grammar where
  rules := .ofList [("<a>b>", ["x"]), ("<start>", ["<a>b>"])]
  bracketed := by decide
  nonempty := by decide
  hasStart := by decide

/-- Its start symbol closes once and is read as itself; to the other nonterminal no expansion
refers. -/
theorem refers_iff_twiceClosed :
    twiceClosed.defines "<start>" = true ∧
      twiceClosed.tokenize "<start>" = [.nonterminal "<start>"] ∧
      twiceClosed.defines "<a>b>" = true ∧
      ¬ ∃ expansion, .nonterminal "<a>b>" ∈ twiceClosed.tokenize expansion := by
  have start : twiceClosed.defines "<start>" = true := by decide
  have other : twiceClosed.defines "<a>b>" = true := by decide
  refine ⟨start, (twiceClosed.refers_iff start).1.2 (by decide), other, fun referred => ?_⟩
  have once := (twiceClosed.refers_iff other).2.1 referred
  exact absurd once (by decide)

/-- **A name that closes twice is terminal text,** although it is defined. -/
theorem tokenize_twiceClosed :
    twiceClosed.defines "<a>b>" = true ∧ twiceClosed.tokenize "<a>b>" = [.terminal "<a>b>"] ∧
      twiceClosed.tokenize "<a>b>" ≠ [.nonterminal "<a>b>"] := by
  decide +kernel

end Grammar

end PreconditionMining
