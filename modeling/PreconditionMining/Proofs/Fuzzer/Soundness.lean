/-
# The samples of a fuzzer are complete

A fuzzer is built only where the start symbol has a complete tree, and each node
of a complete tree has a symbol with a complete tree.  So whatever a run derives
comes from such a symbol, the rules that fall back are never used
(`Fuzzer.Steady`), and each tree that is returned is a complete derivation from
the start symbol: `Fuzzer.Run.returned_complete`.
-/

import PreconditionMining.Proofs.Fuzzer.Rules
import PreconditionMining.Proofs.Fuzzer.Run

namespace PreconditionMining

/-- From a symbol that has a complete tree, `derive` gives what the rules give without falling
back. -/
theorem Derivation.of_derive {ρ : Type} {g : Grammar} {maxDepth : Nat} {chooser : Chooser ρ}
    {symbol : String} {complete t : Tree} {depth : Nat} {r r' : ρ}
    (h : g.IsTreeOf symbol complete)
    (derived : (Expansions.ofGrammar g g.minDepths).derive maxDepth chooser symbol depth r =
      (t, r')) :
    Derivation g maxDepth chooser false depth [.nonterminal symbol] r [t] r' := by
  obtain ⟨d, found, -⟩ := h.exists_depth
  refine (Derivation.iff_derive.2 ⟨t, rfl, derived⟩).strict fun n mem => ?_
  obtain rfl : n = symbol := by simpa using mem
  exact ⟨d, found⟩

namespace Fuzzer

variable {ρ : Type} {chooser : Chooser ρ} {g : Grammar} {start f : Fuzzer ρ} {log : Log}

/-- A fuzzer is built for a grammar whose start symbol has a complete tree, and for the options
that it was asked for. -/
theorem of_build {formula : Option Formula} {options : SolverOptions} {constraints : Constraints}
    {draws : ρ} (built : build g formula options constraints draws = .ok start) :
    start.expansions = .ofGrammar g g.minDepths ∧ start.options = options ∧
      ∃ t, g.IsTreeOf startSymbol t := by
  unfold build at built
  split at built
  · cases built
  · split at built
    · next finite =>
      obtain rfl := Except.ok.inj built
      obtain ⟨d, found⟩ := Option.isSome_iff_exists.1 finite
      obtain ⟨⟨t, ht, -⟩, -⟩ := Grammar.find?_minDepths_eq_some_iff.1 found
      exact ⟨rfl, rfl, t, ht⟩
    · cases built

/-- A fuzzer derives a symbol without falling back, at every depth and with all draws. -/
def Steady (chooser : Chooser ρ) (g : Grammar) (f : Fuzzer ρ) (symbol : String) : Prop :=
  ∀ depth r, Derivation g f.options.maxDepth chooser false depth [.nonterminal symbol] r
    [(f.expansions.derive f.options.maxDepth chooser symbol depth r).1]
    (f.expansions.derive f.options.maxDepth chooser symbol depth r).2

theorem steady_of_isTreeOf (expansions : f.expansions = .ofGrammar g g.minDepths)
    {symbol : String} {t : Tree} (h : g.IsTreeOf symbol t) : f.Steady chooser g symbol := by
  intro depth r
  rw [expansions]
  exact .of_derive h rfl

theorem Steady.isTreeOf {symbol : String} (steady : f.Steady chooser g symbol) {depth : Nat}
    {t : Tree} (drawn : f.Draws chooser symbol depth t) : g.IsTreeOf symbol t := by
  obtain ⟨r, rfl⟩ := drawn
  obtain ⟨tokens, derives⟩ := (steady depth r).derives
  exact ⟨derives _ List.mem_cons_self, by simpa using tokens⟩

/-- A mutant of a complete tree is a complete tree of the same symbol. -/
theorem Mutates.isTreeOf (expansions : f.expansions = .ofGrammar g g.minDepths)
    {symbol : String} {sample t : Tree} (h : g.IsTreeOf symbol sample)
    (mutant : f.Mutates chooser sample t) : g.IsTreeOf symbol t := by
  obtain ⟨path, s, cs, subtree, found, drawn, replaced⟩ := mutant
  have here : g.IsTreeOf s (.node s cs) := ⟨h.1.get? found, rfl⟩
  obtain ⟨derives, token⟩ := (steady_of_isTreeOf expansions here).isTreeOf drawn
  obtain ⟨derives', token'⟩ := h.1.replace found derives token replaced
  exact ⟨derives', token'.trans h.2⟩

/-- **Every tree that a fuzzer returns is a complete derivation from the start symbol,** in every
run in which it is shown its own samples, whatever the draws; and neither the start symbol nor any
symbol of such a tree, from which a mutant may be derived, is ever derived by falling back. -/
theorem Run.returned_complete {formula : Option Formula} {options : SolverOptions}
    {constraints : Constraints} {draws : ρ}
    (built : build g formula options constraints draws = .ok start)
    (run : Run chooser start log f) (own : log.OwnSamples) :
    (∀ t ∈ log.returned, g.IsTreeOf startSymbol t) ∧ start.Steady chooser g startSymbol ∧
      ∀ t ∈ log.returned, ∀ path s cs, t.get? path = some (.node s cs) →
        start.Steady chooser g s := by
  obtain ⟨expansions, -, tree, finite⟩ := of_build built
  have complete : ∀ t ∈ log.returned, g.IsTreeOf startSymbol t :=
    run.forall_returned own
      (fun t drawn => (steady_of_isTreeOf expansions finite).isTreeOf drawn)
      (fun sample t good mutant => mutant.isTreeOf expansions good)
  refine ⟨complete, steady_of_isTreeOf expansions finite, fun t mem path s cs found => ?_⟩
  exact steady_of_isTreeOf expansions ⟨(complete t mem).1.get? found, rfl⟩

end Fuzzer

/-- A grammar of two symbols, one of which has no finite tree. -/
def letters : Grammar where
  rules := .ofList [("<loop>", ["<loop>"]), ("<start>", ["<loop>", "a<start>", "b"])]
  bracketed := by decide
  nonempty := by decide
  hasStart := by decide

namespace Fuzzer

/-- A fuzzer for these letters that makes the choices it is told to make. -/
def ofLetters (choices : List Nat) : Fuzzer (List Nat) :=
  ⟨.ofGrammar letters letters.minDepths, ⟨none, []⟩, {}, choices, []⟩

theorem build_letters (choices : List Nat) :
    build letters none {} .empty choices = .ok (ofLetters choices) := by
  have finite : letters.minDepths.contains startSymbol = true := by decide +kernel
  simp [build, Constraints.compile, finite, ofLetters]

/-- A log with a sample and its mutant: the trees of `ab` and `aab`. -/
def lettersLog : Log :=
  let sample := .node "<start>" [.terminal "a", .node "<start>" [.terminal "b"]]
  let mutant := .node "<start>" [.terminal "a", sample]
  [(.mutate sample, .ok mutant), (.solve, .ok sample)]

theorem ownSamples_lettersLog : lettersLog.OwnSamples := by
  simp [lettersLog, Log.OwnSamples]

theorem run_letters : ∃ f, Run .scripted (ofLetters [0, 1, 1, 0, 1]) lettersLog f := by
  have calls : (makeCalls .scripted (ofLetters [0, 1, 1, 0, 1])
      (lettersLog.map Prod.fst)).1 = lettersLog := by decide +kernel
  exact ⟨_, calls ▸ run_makeCalls _ (lettersLog.map Prod.fst)⟩

/-- The tree of `aab`, which a run returns, is complete. -/
theorem Run.returned_complete_letters :
    build letters none {} .empty [0, 1, 1, 0, 1] = .ok (ofLetters [0, 1, 1, 0, 1]) ∧
      (∃ f, Run .scripted (ofLetters [0, 1, 1, 0, 1]) lettersLog f) ∧ lettersLog.OwnSamples ∧
        ∃ t ∈ lettersLog.returned, t.render = "aab" ∧ letters.IsTreeOf startSymbol t := by
  have built := build_letters [0, 1, 1, 0, 1]
  obtain ⟨f, run⟩ := run_letters
  obtain ⟨complete, -, -⟩ := returned_complete built run ownSamples_lettersLog
  refine ⟨built, ⟨f, run⟩, ownSamples_lettersLog, _, List.mem_cons_self, by decide, ?_⟩
  exact complete _ List.mem_cons_self

end Fuzzer

end PreconditionMining
