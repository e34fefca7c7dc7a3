/-
# The rules of random derivations

`Expansions.derive` goes down within a height that it fixes beforehand.
`Derivation` has the rules alone, without such a height: a derivation ends where
the rules do.  Two of the rules are for a symbol without an alternative to choose
from; they are marked, so that one can say that a derivation makes no use of them.

Past the bound the chosen alternative has the symbol's depth
(`Grammar.find?_of_mem_choices`), so below it there are symbols of smaller depth
only; before the bound the way to it gets shorter.  Hence `Grammar.heightLimit`
shrinks from a symbol to those below it, the fixed height is never used up, and
`derive` gives what the rules give: `Derivation.iff_derive`.

From a symbol that has a complete tree the marked rules are not needed
(`Derivation.strict`), and without them a derivation is a complete tree
(`Derivation.derives`).
-/

import PreconditionMining.Fuzzer.Derivation
import PreconditionMining.Proofs.Grammar.LeastHeight

namespace PreconditionMining

namespace Expansions

theorem mem_finite {depths : Depths} {alternatives : List (List Token)} {a : Alternative} :
    a ∈ finite depths alternatives ↔
      a.tokens ∈ alternatives ∧ depths.ofTokens? a.tokens = some a.depth := by
  unfold finite
  rw [List.mem_filterMap]
  constructor
  · rintro ⟨ts, mem, eq⟩
    obtain ⟨d, known, rfl⟩ := Option.map_eq_some_iff.1 eq
    exact ⟨mem, known⟩
  · rintro ⟨mem, known⟩
    exact ⟨a.tokens, mem, by rw [known]; rfl⟩

theorem mem_shallowest {alternatives : List Alternative} {a : Alternative} :
    a ∈ shallowest alternatives ↔ a ∈ alternatives ∧ ∀ b ∈ alternatives, a.depth ≤ b.depth := by
  unfold shallowest
  split
  · next none =>
    obtain rfl : alternatives = [] := by simpa using none
    simp
  · next least found =>
    obtain ⟨among, le⟩ := List.min?_eq_some_iff.1 found
    obtain ⟨b, hb, rfl⟩ := List.mem_map.1 among
    rw [List.mem_filter, decide_eq_true_iff]
    constructor
    · rintro ⟨mem, same⟩
      exact ⟨mem, fun c hc => same ▸ le _ (List.mem_map_of_mem hc)⟩
    · rintro ⟨mem, low⟩
      exact ⟨mem, Nat.le_antisymm (low b hb) (le _ (List.mem_map_of_mem mem))⟩

theorem shallowest_ne_nil {alternatives : List Alternative} (h : alternatives ≠ []) :
    shallowest alternatives ≠ [] := by
  unfold shallowest
  split
  · next none => exact absurd (by simpa using none) h
  · next least found =>
    obtain ⟨b, hb, rfl⟩ := List.mem_map.1 (List.min?_eq_some_iff.1 found).1
    exact List.ne_nil_of_mem (List.mem_filter.2 ⟨hb, by simp⟩)

theorem eligible_ne_nil (maxDepth depth : Nat) {alternatives : List Alternative}
    (h : alternatives ≠ []) : eligible maxDepth depth alternatives ≠ [] := by
  unfold eligible
  split
  · exact shallowest_ne_nil h
  · exact h

/-- The expansions of a symbol are those of its alternatives that lead to finite trees. -/
theorem find?_ofGrammar (g : Grammar) (depths : Depths) (symbol : String) :
    (ofGrammar g depths).find? symbol =
      (g.alternatives? symbol).map fun alternatives =>
        finite depths (alternatives.map g.tokenize) := by
  unfold ofGrammar Grammar.tokenRules
  rw [List.map_map]
  exact Dictionary.find?_ofList_map (fun alternatives => finite depths (alternatives.map g.tokenize))
    g.rules symbol

/-- No alternative is deeper than the deepest. -/
theorem le_deepest {expansions : Expansions} {symbol : String} {alternatives : List Alternative}
    {a : Alternative} (found : expansions.find? symbol = some alternatives)
    (mem : a ∈ alternatives) : a.depth ≤ expansions.deepest := by
  have among : a.depth ∈ (expansions.entries.flatMap (·.2)).map (·.depth) :=
    List.mem_map_of_mem
      (List.mem_flatMap.2 ⟨(symbol, alternatives), Dictionary.find?_eq_some_iff_mem.1 found, mem⟩)
  unfold deepest
  rw [List.foldl_max, Nat.zero_max]
  exact List.le_max?_getD_of_mem among

end Expansions

namespace Depths

/-- The largest depth of a table, 0 where there is none. -/
def largest (depths : Depths) : Nat := ((depths.entries.map (·.2)).max?).getD 0

theorem le_largest {depths : Depths} {n : String} {d : Nat} (found : depths.find? n = some d) :
    d ≤ depths.largest :=
  List.le_max?_getD_of_mem
    (List.mem_map.2 ⟨(n, d), Dictionary.find?_eq_some_iff_mem.1 found, rfl⟩)

/-- What bounds all depths bounds the largest one. -/
theorem largest_le {depths : Depths} {bound : Nat}
    (h : ∀ n d, depths.find? n = some d → d ≤ bound) : depths.largest ≤ bound := by
  unfold largest
  cases found : (depths.entries.map (·.2)).max? with
  | none => exact Nat.zero_le _
  | some d =>
    obtain ⟨⟨n, e⟩, mem, rfl⟩ := List.mem_map.1 (List.max?_eq_some_iff.1 found).1
    exact h n e (Dictionary.find?_eq_some_iff_mem.2 mem)

/-- No token is deeper than the deepest. -/
theorem find?_of_deepest? {depths : Depths} {n : String} {ts : List Token} {b : Nat}
    (known : depths.deepest? ts = some b) (mem : .nonterminal n ∈ ts) :
    ∃ a, depths.find? n = some a ∧ a ≤ b := by
  induction ts generalizing b with
  | nil => cases mem
  | cons tok ts ih =>
    cases tok with
    | terminal text => exact ih known (by simpa using mem)
    | nonterminal m =>
      obtain ⟨a, c, ha, hc, rfl⟩ := deepest?_nonterminal.1 known
      rcases List.mem_cons.1 mem with eq | later
      · obtain rfl := Token.nonterminal.inj eq
        exact ⟨a, ha, Nat.le_max_left a c⟩
      · obtain ⟨a', ha', le⟩ := ih hc later
        exact ⟨a', ha', Nat.le_trans le (Nat.le_max_right a c)⟩

end Depths

namespace Grammar

variable {g : Grammar}

/-- The alternatives that a derivation chooses from at a depth. -/
def choices (g : Grammar) (maxDepth depth : Nat) (alternatives : List String) : List Alternative :=
  Expansions.eligible maxDepth depth (Expansions.finite g.minDepths (alternatives.map g.tokenize))

/-- The choices are the alternatives that lead to finite trees, and from the bound on only the
shallowest of these. -/
theorem mem_choices_iff {maxDepth depth : Nat} {alternatives : List String} {a : Alternative} :
    a ∈ g.choices maxDepth depth alternatives ↔
      (∃ expansion ∈ alternatives, g.tokenize expansion = a.tokens) ∧
      g.minDepths.ofTokens? a.tokens = some a.depth ∧
      (maxDepth ≤ depth → ∀ other ∈ alternatives, ∀ e,
        g.expansionDepth? other g.minDepths = some e → a.depth ≤ e) := by
  have among : ∀ b, b ∈ Expansions.finite g.minDepths (alternatives.map g.tokenize) ↔
      (∃ expansion ∈ alternatives, g.tokenize expansion = b.tokens) ∧
        g.minDepths.ofTokens? b.tokens = some b.depth := by
    intro b
    rw [Expansions.mem_finite, List.mem_map]
  unfold choices Expansions.eligible
  by_cases past : maxDepth ≤ depth
  · rw [if_pos past, Expansions.mem_shallowest, among, and_assoc]
    refine and_congr_right fun _ => and_congr_right fun _ => ⟨fun least _ => ?_, fun least => ?_⟩
    · exact fun other mem e known => least ⟨_, e⟩ ((among _).2 ⟨⟨other, mem, rfl⟩, known⟩)
    · intro b hb
      obtain ⟨⟨other, mem, tokens⟩, known⟩ := (among b).1 hb
      exact least past other mem b.depth (by rw [expansionDepth?, tokens, known])
  · rw [if_neg past, among]
    exact and_congr_right fun _ => ⟨fun known => ⟨known, fun h => absurd h past⟩, fun h => h.1⟩

/-- The symbols of a chosen alternative have smaller depths than the alternative. -/
theorem find?_of_mem_tokens {maxDepth depth : Nat} {alternatives : List String} {a : Alternative}
    (h : a ∈ g.choices maxDepth depth alternatives) {n : String}
    (mem : .nonterminal n ∈ a.tokens) : ∃ d, g.minDepths.find? n = some d ∧ d < a.depth := by
  obtain ⟨b, known, eq⟩ := Option.map_eq_some_iff.1 (mem_choices_iff.1 h).2.1
  obtain ⟨d, found, le⟩ := Depths.find?_of_deepest? known mem
  exact ⟨d, found, by omega⟩

/-- **Past the bound the depth of a choice is the depth of the symbol.** -/
theorem find?_of_mem_choices {maxDepth depth : Nat} {symbol : String} {alternatives : List String}
    {a : Alternative} (past : maxDepth ≤ depth)
    (defined : g.alternatives? symbol = some alternatives)
    (h : a ∈ g.choices maxDepth depth alternatives) : g.minDepths.find? symbol = some a.depth := by
  obtain ⟨⟨expansion, mem, tokens⟩, known, least⟩ := mem_choices_iff.1 h
  obtain ⟨d, found, le⟩ := minDepths_le defined mem (tokens ▸ known)
  obtain ⟨alternatives', best, defined', mem', known'⟩ := exists_expansion_of_minDepths found
  obtain rfl : alternatives = alternatives' := Option.some.inj (defined.symm.trans defined')
  rw [found, Nat.le_antisymm (least past best mem' d known') le]

/-- A symbol that has a depth has an alternative to choose from. -/
theorem choices_ne_nil (maxDepth depth : Nat) {symbol : String} {d : Nat}
    (found : g.minDepths.find? symbol = some d) :
    ∃ alternatives, g.alternatives? symbol = some alternatives ∧
      g.choices maxDepth depth alternatives ≠ [] := by
  obtain ⟨alternatives, best, defined, mem, known⟩ := exists_expansion_of_minDepths found
  refine ⟨alternatives, defined, Expansions.eligible_ne_nil maxDepth depth ?_⟩
  exact List.ne_nil_of_mem (a := ⟨g.tokenize best, d⟩)
    (Expansions.mem_finite.2 ⟨List.mem_map_of_mem mem, known⟩)

/-- The height that a tree derived from a symbol at a depth does not exceed. -/
def heightLimit (g : Grammar) (maxDepth depth : Nat) (symbol : String) : Nat :=
  if depth < maxDepth then maxDepth - depth + g.minDepths.largest
  else (g.minDepths.find? symbol).getD 0

/-- **The limit shrinks on the way down.** -/
theorem heightLimit_lt {maxDepth depth : Nat} {symbol : String} {alternatives : List String}
    {a : Alternative} (defined : g.alternatives? symbol = some alternatives)
    (h : a ∈ g.choices maxDepth depth alternatives) {n : String}
    (mem : .nonterminal n ∈ a.tokens) :
    g.heightLimit maxDepth (depth + 1) n < g.heightLimit maxDepth depth symbol := by
  obtain ⟨d, found, lt⟩ := find?_of_mem_tokens h mem
  have le := Depths.le_largest found
  unfold heightLimit
  by_cases past : maxDepth ≤ depth
  · have here := find?_of_mem_choices past defined h
    rw [if_neg (by omega), if_neg (by omega), found, here]
    exact lt
  · rw [if_pos (show depth < maxDepth by omega)]
    split
    · omega
    · rw [found]
      show d < _
      omega

/-- The largest depth is that of an alternative. -/
theorem largest_le_deepest (g : Grammar) :
    g.minDepths.largest ≤ (Expansions.ofGrammar g g.minDepths).deepest := by
  refine Depths.largest_le fun n d found => ?_
  obtain ⟨alternatives, best, defined, mem, known⟩ := exists_expansion_of_minDepths found
  have expands : (Expansions.ofGrammar g g.minDepths).find? n =
      some (Expansions.finite g.minDepths (alternatives.map g.tokenize)) := by
    rw [Expansions.find?_ofGrammar, defined]
    rfl
  exact Expansions.le_deepest (a := ⟨g.tokenize best, d⟩) expands
    (Expansions.mem_finite.2 ⟨List.mem_map_of_mem mem, known⟩)

theorem heightLimit_lt_heightBound (g : Grammar) (maxDepth depth : Nat) (symbol : String) :
    g.heightLimit maxDepth depth symbol <
      (Expansions.ofGrammar g g.minDepths).heightBound maxDepth depth := by
  have le := g.largest_le_deepest
  unfold heightLimit Expansions.heightBound
  split
  · omega
  · cases found : g.minDepths.find? symbol with
    | none => exact Nat.succ_pos _
    | some d =>
      have := Depths.le_largest found
      show d < _
      omega

end Grammar

variable {ρ : Type}

/-- **The rules of random derivations.**  Tokens at a depth are derived from left to right into
trees, the draws going on from state to state.  `undefined` and `barren` apply only where falling
back is allowed. -/
inductive Derivation (g : Grammar) (maxDepth : Nat) (chooser : Chooser ρ) (fallback : Bool) :
    Nat → List Token → ρ → List Tree → ρ → Prop
  | nil {depth : Nat} {r : ρ} : Derivation g maxDepth chooser fallback depth [] r [] r
  | terminal {depth : Nat} {text : String} {ts : List Token} {r r' : ρ} {trees : List Tree}
      (rest : Derivation g maxDepth chooser fallback depth ts r trees r') :
      Derivation g maxDepth chooser fallback depth (.terminal text :: ts) r
        (.terminal text :: trees) r'
  /-- A symbol that the grammar does not define is terminal text. -/
  | undefined {depth : Nat} {n : String} {ts : List Token} {r r' : ρ} {trees : List Tree}
      (allowed : fallback = true) (absent : g.alternatives? n = none)
      (rest : Derivation g maxDepth chooser fallback depth ts r trees r') :
      Derivation g maxDepth chooser fallback depth (.nonterminal n :: ts) r
        (.terminal n :: trees) r'
  /-- A symbol without a finite tree becomes a node without children. -/
  | barren {depth : Nat} {n : String} {alternatives : List String} {ts : List Token} {r r' : ρ}
      {trees : List Tree} (allowed : fallback = true)
      (defined : g.alternatives? n = some alternatives)
      (none : g.choices maxDepth depth alternatives = [])
      (rest : Derivation g maxDepth chooser fallback depth ts r trees r') :
      Derivation g maxDepth chooser fallback depth (.nonterminal n :: ts) r
        (.node n [] :: trees) r'
  | expand {depth : Nat} {n : String} {alternatives : List String} {first : Alternative}
      {others : List Alternative} {ts : List Token} {r r₁ r₂ : ρ} {children trees : List Tree}
      (defined : g.alternatives? n = some alternatives)
      (choices : g.choices maxDepth depth alternatives = first :: others)
      (below : Derivation g maxDepth chooser fallback (depth + 1)
        (chooser.element first others r).1.tokens (chooser.element first others r).2 children r₁)
      (rest : Derivation g maxDepth chooser fallback depth ts r₁ trees r₂) :
      Derivation g maxDepth chooser fallback depth (.nonterminal n :: ts) r
        (.node n children :: trees) r₂

namespace Derivation

variable {g : Grammar} {maxDepth : Nat} {chooser : Chooser ρ} {fallback : Bool}

/-- What is chosen is one of the choices. -/
theorem element_mem_choices {depth : Nat} {alternatives : List String} {first : Alternative}
    {others : List Alternative} (choices : g.choices maxDepth depth alternatives = first :: others)
    (r : ρ) : (chooser.element first others r).1 ∈ g.choices maxDepth depth alternatives :=
  choices ▸ chooser.element_mem first others r

theorem cons {depth : Nat} {n : String} {ts : List Token} {r r₁ r₂ : ρ} {t : Tree}
    {trees : List Tree}
    (first : Derivation g maxDepth chooser fallback depth [.nonterminal n] r [t] r₁)
    (rest : Derivation g maxDepth chooser fallback depth ts r₁ trees r₂) :
    Derivation g maxDepth chooser fallback depth (.nonterminal n :: ts) r (t :: trees) r₂ := by
  cases first with
  | undefined allowed absent done =>
    cases done
    exact .undefined allowed absent rest
  | barren allowed defined none done =>
    cases done
    exact .barren allowed defined none rest
  | expand defined choices below done =>
    cases done
    exact .expand defined choices below rest

theorem of_deriveTokens {depth : Nat} {child : String → ρ → Tree × ρ} :
    ∀ {ts : List Token} (r : ρ),
      (∀ n, .nonterminal n ∈ ts → ∀ r, Derivation g maxDepth chooser fallback depth
        [.nonterminal n] r [(child n r).1] (child n r).2) →
      Derivation g maxDepth chooser fallback depth ts r
        (Expansions.deriveTokens child ts r).1 (Expansions.deriveTokens child ts r).2
  | [], _, _ => .nil
  | .terminal _ :: _, r, h => .terminal (of_deriveTokens r fun n mem => h n (by simp [mem]))
  | .nonterminal n :: _, r, h =>
    (h n List.mem_cons_self r).cons
      (of_deriveTokens (child n r).2 fun m mem => h m (List.mem_cons_of_mem _ mem))

/-- A height above the limit is enough for a derivation. -/
theorem of_deriveWithin :
    ∀ {height depth : Nat} {symbol : String} (r : ρ),
      g.heightLimit maxDepth depth symbol < height →
        Derivation g maxDepth chooser true depth [.nonterminal symbol] r
          [((Expansions.ofGrammar g g.minDepths).deriveWithin maxDepth chooser
            height symbol depth r).1]
          ((Expansions.ofGrammar g g.minDepths).deriveWithin maxDepth chooser
            height symbol depth r).2
  | height + 1, depth, symbol, r, enough => by
    rw [Expansions.deriveWithin, Expansions.find?_ofGrammar]
    cases defined : g.alternatives? symbol with
    | none => exact .undefined rfl defined .nil
    | some alternatives =>
      simp only [Option.map_some]
      cases choices : Expansions.eligible maxDepth depth
          (Expansions.finite g.minDepths (alternatives.map g.tokenize)) with
      | nil => exact .barren rfl defined choices .nil
      | cons first rest =>
        refine .expand defined choices (of_deriveTokens _ fun n mem r => ?_) .nil
        have smaller := Grammar.heightLimit_lt defined (element_mem_choices choices _) mem
        exact of_deriveWithin r (by omega)

/-- The rules leave nothing open but the draws. -/
theorem unique {depth : Nat} {ts : List Token} {r r₁ r₂ : ρ} {trees others : List Tree}
    (h : Derivation g maxDepth chooser fallback depth ts r trees r₁)
    (h' : Derivation g maxDepth chooser fallback depth ts r others r₂) :
    trees = others ∧ r₁ = r₂ := by
  induction h generalizing others r₂ with
  | nil =>
    cases h'
    exact ⟨rfl, rfl⟩
  | terminal _ ih =>
    cases h' with
    | terminal rest =>
      obtain ⟨rfl, rfl⟩ := ih rest
      exact ⟨rfl, rfl⟩
  | undefined allowed absent _ ih =>
    cases h' with
    | undefined _ _ rest =>
      obtain ⟨rfl, rfl⟩ := ih rest
      exact ⟨rfl, rfl⟩
    | barren _ defined => simp [absent] at defined
    | expand defined => simp [absent] at defined
  | barren allowed defined none _ ih =>
    cases h' with
    | undefined _ absent => simp [defined] at absent
    | barren _ _ _ rest =>
      obtain ⟨rfl, rfl⟩ := ih rest
      exact ⟨rfl, rfl⟩
    | expand defined' choices =>
      obtain rfl := Option.some.inj (defined.symm.trans defined')
      simp [none] at choices
  | expand defined choices _ _ ihBelow ih =>
    cases h' with
    | undefined _ absent => simp [defined] at absent
    | barren _ defined' none =>
      obtain rfl := Option.some.inj (defined.symm.trans defined')
      simp [none] at choices
    | expand defined' choices' below rest =>
      obtain rfl := Option.some.inj (defined.symm.trans defined')
      obtain ⟨rfl, rfl⟩ := List.cons.inj (choices.symm.trans choices')
      obtain ⟨rfl, rfl⟩ := ihBelow below
      obtain ⟨rfl, rfl⟩ := ih rest
      exact ⟨rfl, rfl⟩

/-- **Deriving is following the rules:** they come to an end for every symbol at every depth,
and where they end is what `derive` gives. -/
theorem iff_derive {symbol : String} {depth : Nat} {r r' : ρ} {trees : List Tree} :
    Derivation g maxDepth chooser true depth [.nonterminal symbol] r trees r' ↔
      ∃ t, trees = [t] ∧ (Expansions.ofGrammar g g.minDepths).derive maxDepth chooser
        symbol depth r = (t, r') := by
  have ends : Derivation g maxDepth chooser true depth [.nonterminal symbol] r _ _ :=
    of_deriveWithin r (g.heightLimit_lt_heightBound maxDepth depth symbol)
  constructor
  · intro h
    obtain ⟨rfl, rfl⟩ := h.unique ends
    exact ⟨_, rfl, rfl⟩
  · rintro ⟨t, rfl, derived⟩
    rw [Expansions.derive] at derived
    rwa [derived] at ends

/-- **From symbols that have depths no rule falls back.** -/
theorem strict {depth : Nat} {ts : List Token} {r r' : ρ} {trees : List Tree}
    (h : Derivation g maxDepth chooser fallback depth ts r trees r')
    (finite : ∀ n, .nonterminal n ∈ ts → ∃ d, g.minDepths.find? n = some d) :
    Derivation g maxDepth chooser false depth ts r trees r' := by
  induction h with
  | nil => exact .nil
  | terminal _ ih => exact .terminal (ih fun n mem => finite n (List.mem_cons_of_mem _ mem))
  | @undefined _ n _ _ _ _ _ absent _ _ =>
    obtain ⟨d, found⟩ := finite n List.mem_cons_self
    obtain ⟨alternatives, defined, -⟩ := Grammar.choices_ne_nil maxDepth 0 found
    simp [absent] at defined
  | @barren depth n _ _ _ _ _ _ defined none _ _ =>
    obtain ⟨d, found⟩ := finite n List.mem_cons_self
    obtain ⟨alternatives, defined', some⟩ := Grammar.choices_ne_nil maxDepth depth found
    obtain rfl := Option.some.inj (defined.symm.trans defined')
    exact absurd none some
  | expand defined choices _ _ ihBelow ih =>
    refine .expand defined choices (ihBelow fun n mem => ?_)
      (ih fun n mem => finite n (List.mem_cons_of_mem _ mem))
    obtain ⟨d, found, -⟩ := Grammar.find?_of_mem_tokens (element_mem_choices choices _) mem
    exact ⟨d, found⟩

/-- **What is derived without falling back is complete,** and reads as it was asked. -/
theorem derives {depth : Nat} {ts : List Token} {r r' : ρ} {trees : List Tree}
    (h : Derivation g maxDepth chooser false depth ts r trees r') :
    trees.map Tree.token = ts ∧ ∀ t ∈ trees, g.Derives t := by
  induction h with
  | nil => exact ⟨rfl, by simp⟩
  | terminal _ ih => exact ⟨by simp [Tree.token, ih.1], by simpa using ⟨.terminal _, ih.2⟩⟩
  | undefined allowed => cases allowed
  | barren allowed => cases allowed
  | expand defined choices _ _ ihBelow ih =>
    obtain ⟨⟨expansion, mem, tokens⟩, -⟩ :=
      Grammar.mem_choices_iff.1 (element_mem_choices choices _)
    refine ⟨by simp [Tree.token, ih.1], ?_⟩
    simpa using ⟨.node defined mem (ihBelow.1.trans tokens.symm) ihBelow.2, ih.2⟩

end Derivation

end PreconditionMining
