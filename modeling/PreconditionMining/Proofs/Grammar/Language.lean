/-
# The language of a grammar

A symbol generates the texts that it can be spelled out as: one of its
alternatives is chosen, and the nonterminals in it are spelled out in turn
(`Grammar.Spells`).  These are the renderings of the symbol's complete trees
(`Grammar.generates_iff`), so a symbol generates a text exactly when it has a
depth, and a fuzzer can be built for a grammar exactly when the start symbol
generates one: `Grammar.minDepths_exact`.
-/

import PreconditionMining.Fuzzer.Basic
import PreconditionMining.Proofs.Grammar.Settling

namespace PreconditionMining

namespace Grammar

variable {g : Grammar}

/-- **The texts that tokens can be spelled out as.** -/
inductive Spells (g : Grammar) : List Token → String → Prop
  | nil : Spells g [] ""
  | terminal {text rest : String} {ts : List Token} (later : Spells g ts rest) :
      Spells g (.terminal text :: ts) (text ++ rest)
  | expand {symbol expansion front rest : String} {alternatives : List String} {ts : List Token}
      (defined : g.alternatives? symbol = some alternatives) (mem : expansion ∈ alternatives)
      (spelled : Spells g (g.tokenize expansion) front) (later : Spells g ts rest) :
      Spells g (.nonterminal symbol :: ts) (front ++ rest)

/-- A symbol generates the texts that it can be spelled out as. -/
def Generates (g : Grammar) (symbol text : String) : Prop := g.Spells [.nonterminal symbol] text

/-- What is spelled out is the rendering of complete trees. -/
theorem Spells.exists_trees {ts : List Token} {text : String} (h : g.Spells ts text) :
    ∃ cs : List Tree, cs.map Tree.token = ts ∧ (∀ c ∈ cs, g.Derives c) ∧
      Tree.renderAll cs = text := by
  induction h with
  | nil => exact ⟨[], rfl, by simp, rfl⟩
  | @terminal text rest ts later ih =>
    obtain ⟨cs, tokens, derives, rfl⟩ := ih
    exact ⟨.terminal text :: cs, by rw [List.map_cons, tokens]; rfl,
      List.forall_mem_cons.2 ⟨.terminal text, derives⟩, rfl⟩
  | @expand symbol expansion front rest alternatives ts defined mem spelled later ihSpelled ih =>
    obtain ⟨ds, tokens', derives', rfl⟩ := ihSpelled
    obtain ⟨cs, tokens, derives, rfl⟩ := ih
    exact ⟨.node symbol ds :: cs, by rw [List.map_cons, tokens]; rfl,
      List.forall_mem_cons.2 ⟨.node defined mem tokens' derives', derives⟩, rfl⟩

/-- The rendering of complete trees can be spelled out. -/
theorem spells_renderAll {cs : List Tree}
    (h : ∀ c ∈ cs, ∀ ts rest, g.Spells ts rest → g.Spells (c.token :: ts) (c.render ++ rest)) :
    g.Spells (cs.map Tree.token) (Tree.renderAll cs) := by
  induction cs with
  | nil => exact .nil
  | cons c cs ih =>
    exact h c List.mem_cons_self _ _ (ih fun d hd => h d (List.mem_cons_of_mem _ hd))

theorem Derives.spells {t : Tree} (h : g.Derives t) :
    ∀ ts rest, g.Spells ts rest → g.Spells (t.token :: ts) (t.render ++ rest) := by
  induction h with
  | terminal text => exact fun ts rest later => .terminal later
  | node defined mem tokens below ih =>
    intro ts rest later
    exact .expand defined mem (tokens ▸ spells_renderAll ih) later

/-- **A symbol generates the renderings of its complete trees.** -/
theorem generates_iff {symbol text : String} :
    g.Generates symbol text ↔ ∃ t, g.IsTreeOf symbol t ∧ t.render = text := by
  constructor
  · intro h
    obtain ⟨cs, tokens, derives, rfl⟩ := h.exists_trees
    obtain ⟨t, rfl, token⟩ := List.map_eq_singleton_iff.1 tokens
    exact ⟨t, ⟨derives t List.mem_cons_self, token⟩, by simp [Tree.renderAll]⟩
  · rintro ⟨t, ⟨derives, token⟩, rfl⟩
    have spelled := derives.spells [] "" .nil
    rwa [token, String.append_empty] at spelled

/-- A symbol has a depth exactly when it has a complete tree. -/
theorem exists_depth_iff {symbol : String} :
    (∃ d, g.minDepths.find? symbol = some d) ↔ ∃ t, g.IsTreeOf symbol t := by
  constructor
  · rintro ⟨d, found⟩
    obtain ⟨⟨t, ht, -⟩, -⟩ := find?_minDepths_eq_some_iff.1 found
    exact ⟨t, ht⟩
  · rintro ⟨t, ht⟩
    obtain ⟨d, found, -⟩ := ht.exists_depth
    exact ⟨d, found⟩

/-- A symbol has a depth exactly when it generates a text. -/
theorem contains_minDepths_iff {symbol : String} :
    g.minDepths.contains symbol = true ↔ ∃ text, g.Generates symbol text := by
  rw [Dictionary.contains, Option.isSome_iff_exists, exists_depth_iff]
  constructor
  · rintro ⟨t, ht⟩
    exact ⟨t.render, generates_iff.2 ⟨t, ht, rfl⟩⟩
  · rintro ⟨text, h⟩
    obtain ⟨t, ht, -⟩ := generates_iff.1 h
    exact ⟨t, ht⟩

end Grammar

/-- **The depths of a grammar are exact.**  The passes over its rules end, and always with the
same table; in it a symbol has the least height of its complete trees, and no depth exactly when
it has no complete tree.  With a formula that can be compiled a fuzzer is built when the start
symbol generates a text, and refused for the start symbol when it generates none. -/
theorem Grammar.minDepths_exact (g : Grammar) :
    (∀ result, Depths.Settling g.tokenRules .empty result ↔ result = g.minDepths) ∧
    (∀ symbol d, g.minDepths.find? symbol = some d ↔ g.LeastHeight symbol d) ∧
    (∀ symbol, g.minDepths.find? symbol = none ↔ ¬ ∃ t, g.IsTreeOf symbol t) ∧
    ∀ (ρ : Type) (formula : Option Formula) (options : SolverOptions) (constraints : Constraints)
      (draws : ρ),
      (Fuzzer.build g formula options constraints draws = .error .noFiniteDerivation ↔
        (∃ compiled, constraints.compile formula = .ok compiled) ∧
          ¬ ∃ text, g.Generates startSymbol text) ∧
      ((∃ f, Fuzzer.build g formula options constraints draws = .ok f) ↔
        (∃ compiled, constraints.compile formula = .ok compiled) ∧
          ∃ text, g.Generates startSymbol text) := by
  refine ⟨fun result => g.settling_iff, fun symbol d => find?_minDepths_eq_some_iff,
    fun symbol => ?_, fun ρ formula options constraints draws => ?_⟩
  · rw [← exists_depth_iff]
    cases g.minDepths.find? symbol <;> simp
  · rw [← contains_minDepths_iff]
    unfold Fuzzer.build
    cases compiled : constraints.compile formula with
    | error e =>
      obtain ⟨atom, rfl⟩ := Constraints.exists_atom_of_compile compiled
      simp [SolverError.noFiniteDerivation]
    | ok f =>
      by_cases finite : g.minDepths.contains startSymbol = true <;> simp [finite]

end PreconditionMining
