/-
# The depths of a grammar are least heights

`Grammar.minDepths` improves a table in place, so while it is built an entry may
be too large.  Two facts hold all the way: each entry is the height of some
complete tree (`Realises`), and after `k` passes each complete tree of height at
most `k` is matched by an entry that is no larger (`Covers`).  Entries only get
smaller (`Depths.Refines`), which is why a pass that reads entries of its own
still reaches one level further (`covers_pass`).

The least heights do not exceed the number of rules
(`LeastHeight.le_length_rules`), so as many passes as there are rules match every
tree: `find?_minDepths_eq_some_iff`.
-/

import PreconditionMining.Grammar.Depth
import PreconditionMining.Proofs.Grammar.DerivationTree

namespace PreconditionMining

namespace Depths

/-- One table knows all that another knows, with depths that are no larger. -/
def Refines (fine coarse : Depths) : Prop :=
  ∀ n d, coarse.find? n = some d → ∃ e, fine.find? n = some e ∧ e ≤ d

/-- A table knows all that it knows itself. -/
theorem Refines.refl (depths : Depths) : depths.Refines depths :=
  fun _ d found => ⟨d, found, Nat.le_refl d⟩

/-- What is finer than a finer table is finer. -/
theorem Refines.trans {a b c : Depths} (hab : a.Refines b) (hbc : b.Refines c) : a.Refines c := by
  intro n d found
  obtain ⟨e, found', le⟩ := hbc n d found
  obtain ⟨e', found'', le'⟩ := hab n e found'
  exact ⟨e', found'', Nat.le_trans le' le⟩

/-- The depth of tokens that begin with a nonterminal is known when its depth is, and that of the
rest. -/
theorem deepest?_nonterminal {depths : Depths} {n : String} {ts : List Token} {d : Nat} :
    depths.deepest? (.nonterminal n :: ts) = some d ↔
      ∃ a b, depths.find? n = some a ∧ depths.deepest? ts = some b ∧ max a b = d := by
  rw [deepest?]
  cases ha : depths.find? n with
  | none => simp
  | some a =>
    cases hb : depths.deepest? ts with
    | none => simp
    | some b => simp

/-- A finer table gives tokens a depth that is no larger. -/
theorem Refines.deepest? {fine coarse : Depths} (h : fine.Refines coarse) {ts : List Token}
    {d : Nat} (known : coarse.deepest? ts = some d) :
    ∃ e, fine.deepest? ts = some e ∧ e ≤ d := by
  induction ts generalizing d with
  | nil => exact ⟨d, known, Nat.le_refl d⟩
  | cons tok ts ih =>
    cases tok with
    | terminal text => exact ih known
    | nonterminal n =>
      obtain ⟨a, b, ha, hb, rfl⟩ := deepest?_nonterminal.1 known
      obtain ⟨a', ha', lea⟩ := h n a ha
      obtain ⟨b', hb', leb⟩ := ih hb
      exact ⟨max a' b', deepest?_nonterminal.2 ⟨a', b', ha', hb', rfl⟩, by omega⟩

/-- So it does for an alternative. -/
theorem Refines.ofTokens? {fine coarse : Depths} (h : fine.Refines coarse) {ts : List Token}
    {d : Nat} (known : coarse.ofTokens? ts = some d) : ∃ e, fine.ofTokens? ts = some e ∧ e ≤ d := by
  obtain ⟨b, hb, rfl⟩ := Option.map_eq_some_iff.1 known
  obtain ⟨b', hb', le⟩ := h.deepest? hb
  exact ⟨b' + 1, by simp [Depths.ofTokens?, hb'], Nat.succ_le_succ le⟩

/-- The turn of a rule only makes a table finer: an entry is replaced by a smaller one. -/
theorem refines_improve (depths : Depths) (rule : String × List (List Token)) :
    (depths.improve rule).Refines depths := by
  unfold improve
  split
  · exact Refines.refl depths
  · next best _ =>
    split
    · next better =>
      intro n d found
      rw [Dictionary.find?_insert]
      by_cases here : n = rule.1
      · subst here
        rw [found] at better
        exact ⟨best, by simp, Nat.le_of_lt (by simpa using better)⟩
      · exact ⟨d, by simp [here, found], Nat.le_refl d⟩
    · exact Refines.refl depths

/-- After a rule's turn the depth of its nonterminal is no larger than that of any alternative. -/
theorem improve_le {depths : Depths} {rule : String × List (List Token)} {ts : List Token} {e : Nat}
    (mem : ts ∈ rule.2) (known : depths.ofTokens? ts = some e) :
    ∃ d, (depths.improve rule).find? rule.1 = some d ∧ d ≤ e := by
  have among : e ∈ rule.2.filterMap depths.ofTokens? := List.mem_filterMap.2 ⟨ts, mem, known⟩
  unfold improve
  split
  · next none =>
    rw [List.min?_eq_none_iff] at none
    rw [none] at among
    cases among
  · next best least =>
    have le := (List.min?_eq_some_iff.1 least).2 e among
    split
    · exact ⟨best, by simp [Dictionary.find?_insert], le⟩
    · next worse =>
      cases found : depths.find? rule.1 with
      | none => simp [found] at worse
      | some d =>
        simp only [found, Option.all_some, decide_eq_true_eq] at worse
        exact ⟨d, rfl, by omega⟩

/-- **A pass only makes a table finer.** -/
theorem refines_pass (rules : List (String × List (List Token))) (depths : Depths) :
    (pass rules depths).Refines depths := by
  induction rules generalizing depths with
  | nil => exact Refines.refl depths
  | cons rule rules ih => exact (ih (depths.improve rule)).trans (refines_improve depths rule)

/-- After a pass the depth of a nonterminal is no larger than what any alternative of it had before
the pass. The turns in front of its own do not spoil this, as they only make the table finer. -/
theorem pass_le {rules : List (String × List (List Token))} {rule : String × List (List Token)}
    {ts : List Token} (mem : rule ∈ rules) (alternative : ts ∈ rule.2) {depths : Depths} {e : Nat}
    (known : depths.ofTokens? ts = some e) :
    ∃ d, (pass rules depths).find? rule.1 = some d ∧ d ≤ e := by
  induction rules generalizing depths e with
  | nil => cases mem
  | cons first rules ih =>
    rcases List.mem_cons.1 mem with rfl | mem
    · obtain ⟨d, found, le⟩ := improve_le alternative known
      obtain ⟨d', found', le'⟩ := refines_pass rules (depths.improve rule) rule.1 d found
      exact ⟨d', found', Nat.le_trans le' le⟩
    · obtain ⟨e', known', le⟩ := (refines_improve depths first).ofTokens? known
      obtain ⟨d, found, le'⟩ := ih mem known'
      exact ⟨d, found, Nat.le_trans le' le⟩

/-- A list of trees is at least as deep as the table says, when each of the trees is. -/
theorem deepest?_le_heightAll (depths : Depths) (cs : List Tree)
    (h : ∀ c ∈ cs, ∀ n, c.token = .nonterminal n →
      ∃ e, depths.find? n = some e ∧ e ≤ c.height) :
    ∃ d, depths.deepest? (cs.map Tree.token) = some d ∧ d ≤ Tree.heightAll cs := by
  induction cs with
  | nil => exact ⟨0, rfl, Nat.le_refl 0⟩
  | cons c cs ih =>
    obtain ⟨b, hb, leb⟩ := ih fun c hc => h c (List.mem_cons_of_mem _ hc)
    cases c with
    | terminal text => exact ⟨b, hb, by simp only [Tree.heightAll]; omega⟩
    | node n ds =>
      obtain ⟨a, ha, lea⟩ := h (.node n ds) List.mem_cons_self n rfl
      exact ⟨max a b, deepest?_nonterminal.2 ⟨a, b, ha, hb, rfl⟩,
        by simp only [Tree.heightAll]; omega⟩

end Depths

namespace Grammar

variable {g : Grammar}

/-- The rules that a pass works on are those of the grammar, with each alternative as its tokens. -/
theorem mem_tokenRules {rule : String × List (List Token)} :
    rule ∈ g.tokenRules ↔
      ∃ alternatives, g.alternatives? rule.1 = some alternatives ∧
        rule.2 = alternatives.map g.tokenize := by
  unfold tokenRules
  constructor
  · intro mem
    obtain ⟨⟨name, alternatives⟩, entry, rfl⟩ := List.mem_map.1 mem
    exact ⟨alternatives, Dictionary.find?_eq_some_iff_mem.2 entry, rfl⟩
  · rintro ⟨alternatives, defined, eq⟩
    exact List.mem_map.2 ⟨(rule.1, alternatives), Dictionary.find?_eq_some_iff_mem.1 defined,
      Prod.ext rfl eq.symm⟩

/-- Each depth of the table is the height of a complete tree. -/
def Realises (g : Grammar) (depths : Depths) : Prop :=
  ∀ n d, depths.find? n = some d → ∃ t, g.IsTreeOf n t ∧ t.height = d

/-- Each complete tree of at most a given height is matched by a depth that is no larger. -/
def Covers (g : Grammar) (height : Nat) (depths : Depths) : Prop :=
  ∀ n t, g.IsTreeOf n t → t.height ≤ height → ∃ d, depths.find? n = some d ∧ d ≤ t.height

/-- Tokens with a known depth are the tokens of complete trees that reach this depth together: one
for each nonterminal, as high as the table says. -/
theorem Realises.exists_trees {depths : Depths} (h : g.Realises depths) {ts : List Token}
    {d : Nat} (known : depths.deepest? ts = some d) :
    ∃ cs : List Tree, cs.map Tree.token = ts ∧ (∀ c ∈ cs, g.Derives c) ∧
      Tree.heightAll cs = d := by
  induction ts generalizing d with
  | nil => exact ⟨[], rfl, by simp, by simpa [Depths.deepest?, Tree.heightAll] using known⟩
  | cons tok ts ih =>
    cases tok with
    | terminal text =>
      obtain ⟨cs, tokens, derives, height⟩ := ih known
      refine ⟨.terminal text :: cs, by simp [tokens, Tree.token], ?_, ?_⟩
      · simpa using ⟨.terminal text, derives⟩
      · simpa [Tree.heightAll, Tree.height] using height
    | nonterminal n =>
      obtain ⟨a, b, ha, hb, rfl⟩ := Depths.deepest?_nonterminal.1 known
      obtain ⟨t, ht, rfl⟩ := h n a ha
      obtain ⟨cs, tokens, derives, rfl⟩ := ih hb
      exact ⟨t :: cs, by rw [List.map_cons, ht.2, tokens], by simpa using ⟨ht.1, derives⟩, rfl⟩

/-- An alternative with a known depth is the root of a complete tree of this height. -/
theorem Realises.exists_tree {depths : Depths} (h : g.Realises depths) {symbol expansion : String}
    {alternatives : List String} {d : Nat} (defined : g.alternatives? symbol = some alternatives)
    (mem : expansion ∈ alternatives) (known : depths.ofTokens? (g.tokenize expansion) = some d) :
    ∃ t, g.IsTreeOf symbol t ∧ t.height = d := by
  obtain ⟨b, hb, rfl⟩ := Option.map_eq_some_iff.1 known
  obtain ⟨cs, tokens, derives, rfl⟩ := h.exists_trees hb
  exact ⟨.node symbol cs, ⟨.node defined mem tokens derives, rfl⟩, rfl⟩

/-- **The turn of a rule invents no height:** where an entry is replaced, the alternative that it
comes from has a complete tree. -/
theorem realises_improve {depths : Depths} {rule : String × List (List Token)}
    (mem : rule ∈ g.tokenRules) (h : g.Realises depths) : g.Realises (depths.improve rule) := by
  obtain ⟨alternatives, defined, eq⟩ := mem_tokenRules.1 mem
  unfold Depths.improve
  split
  · exact h
  · next best least =>
    split
    · intro n d found
      rw [Dictionary.find?_insert] at found
      split at found
      · next here =>
        obtain rfl := Option.some.inj found
        obtain ⟨ts, alternative, known⟩ := List.mem_filterMap.1 (List.min?_eq_some_iff.1 least).1
        rw [eq] at alternative
        obtain ⟨expansion, expands, rfl⟩ := List.mem_map.1 alternative
        rw [here]
        exact h.exists_tree defined expands known
      · exact h n d found
    · exact h

/-- Nor does a pass. -/
theorem realises_pass {rules : List (String × List (List Token))} (sub : rules ⊆ g.tokenRules)
    {depths : Depths} (h : g.Realises depths) : g.Realises (Depths.pass rules depths) := by
  induction rules generalizing depths with
  | nil => exact h
  | cons rule rules ih =>
    exact ih (fun _ hr => sub (List.mem_cons_of_mem _ hr))
      (realises_improve (sub List.mem_cons_self) h)

/-- **A pass reaches one level further.** -/
theorem covers_pass {height : Nat} {depths : Depths} (h : g.Covers height depths) :
    g.Covers (height + 1) (Depths.pass g.tokenRules depths) := by
  intro n t ht le
  obtain ⟨alternatives, expansion, cs, rfl, defined, mem, spelled, below⟩ := ht.exists_node
  have low : ∀ c ∈ cs, c.height ≤ height :=
    Tree.heightAll_le_iff.1 (Nat.le_of_succ_le_succ le)
  obtain ⟨b, hb, leb⟩ := Depths.deepest?_le_heightAll depths cs
    fun c hc m token => h m c ⟨below c hc, token⟩ (low c hc)
  rw [spelled] at hb
  have known : depths.ofTokens? (g.tokenize expansion) = some (b + 1) := by
    simp [Depths.ofTokens?, hb]
  obtain ⟨d, found, le'⟩ := Depths.pass_le
    (mem_tokenRules.2 ⟨alternatives, defined, rfl⟩ : (n, alternatives.map g.tokenize) ∈ g.tokenRules)
    (List.mem_map.2 ⟨expansion, mem, rfl⟩) known
  exact ⟨d, found, by simp only [Tree.height]; omega⟩

/-- A table that a pass does not change matches trees of any height, if it matches those of some
height: each pass would have reached one level further. -/
theorem covers_of_fixed {depths : Depths} (fixed : Depths.pass g.tokenRules depths = depths)
    {height : Nat} (h : g.Covers height depths) (more : Nat) : g.Covers (height + more) depths := by
  induction more with
  | zero => exact h
  | succ more ih =>
    have next := covers_pass ih
    rwa [fixed] at next

/-- As many passes reach as many levels further, even if they end early because nothing changes any
more. -/
theorem covers_settle (n : Nat) {height : Nat} {depths : Depths} (h : g.Covers height depths) :
    g.Covers (height + n) (Depths.settle g.tokenRules n depths) := by
  induction n generalizing height depths with
  | zero => exact h
  | succ n ih =>
    unfold Depths.settle
    split
    · next fixed => exact covers_of_fixed fixed h (n + 1)
    · have next := ih (covers_pass h)
      rwa [show height + 1 + n = height + (n + 1) by omega] at next

/-- However many passes there are, no height is invented. -/
theorem realises_settle (n : Nat) {depths : Depths} (h : g.Realises depths) :
    g.Realises (Depths.settle g.tokenRules n depths) := by
  induction n generalizing depths with
  | zero => exact h
  | succ n ih =>
    unfold Depths.settle
    split
    · exact h
    · exact ih (realises_pass (List.Subset.refl _) h)

/-- **Each depth of a grammar is the height of some complete tree.** -/
theorem realises_minDepths (g : Grammar) : g.Realises g.minDepths :=
  realises_settle _ fun n d found => by simp at found

/-- **The depths of a grammar match all trees that are no higher than there are rules.** The passes
begin with the empty table, which matches no tree at all, as each tree has a height. -/
theorem covers_minDepths (g : Grammar) : g.Covers g.rules.entries.length g.minDepths := by
  have none : g.Covers 0 .empty := by
    intro n t ht le
    obtain ⟨alternatives, expansion, cs, rfl, -⟩ := ht.exists_node
    simp [Tree.height] at le
  have all := covers_settle g.tokenRules.length none
  rw [Nat.zero_add] at all
  simpa [minDepths, tokenRules] using all

/-- **The depths of a grammar are the least heights of its complete trees,** and a symbol without
a complete tree has none. -/
theorem find?_minDepths_eq_some_iff {symbol : String} {d : Nat} :
    g.minDepths.find? symbol = some d ↔ g.LeastHeight symbol d := by
  have matched : ∀ e, g.LeastHeight symbol e → g.minDepths.find? symbol = some e := by
    intro e least
    obtain ⟨t, ht, rfl⟩ := least.1
    obtain ⟨d, found, le⟩ := covers_minDepths g symbol t ht least.le_length_rules
    obtain ⟨u, hu, rfl⟩ := realises_minDepths g symbol d found
    rw [found, Nat.le_antisymm le (least.2 u hu)]
  constructor
  · intro found
    obtain ⟨t, ht, -⟩ := realises_minDepths g symbol d found
    obtain ⟨e, least, -⟩ := ht.exists_leastHeight
    rw [matched e least] at found
    exact Option.some.inj found ▸ least
  · exact matched d

/-- The symbol of a complete tree has a depth. -/
theorem IsTreeOf.exists_depth {symbol : String} {t : Tree} (h : g.IsTreeOf symbol t) :
    ∃ d, g.minDepths.find? symbol = some d ∧ d ≤ t.height := by
  obtain ⟨d, least, le⟩ := h.exists_leastHeight
  exact ⟨d, find?_minDepths_eq_some_iff.2 least, le⟩

/-- The depth of a symbol is no larger than that of any of its alternatives. -/
theorem minDepths_le {symbol expansion : String} {alternatives : List String} {e : Nat}
    (defined : g.alternatives? symbol = some alternatives) (mem : expansion ∈ alternatives)
    (known : g.minDepths.ofTokens? (g.tokenize expansion) = some e) :
    ∃ d, g.minDepths.find? symbol = some d ∧ d ≤ e := by
  obtain ⟨t, ht, rfl⟩ := (realises_minDepths g).exists_tree defined mem known
  exact ht.exists_depth

/-- The depth of a symbol is that of one of its alternatives. -/
theorem exists_expansion_of_minDepths {symbol : String} {d : Nat}
    (found : g.minDepths.find? symbol = some d) :
    ∃ alternatives expansion, g.alternatives? symbol = some alternatives ∧
      expansion ∈ alternatives ∧ g.minDepths.ofTokens? (g.tokenize expansion) = some d := by
  obtain ⟨⟨t, ht, rfl⟩, -⟩ := find?_minDepths_eq_some_iff.1 found
  obtain ⟨alternatives, expansion, cs, rfl, defined, mem, spelled, below⟩ := ht.exists_node
  have known : ∀ c ∈ cs, ∀ n, c.token = .nonterminal n →
      ∃ e, g.minDepths.find? n = some e ∧ e ≤ c.height := by
    intro c hc n token
    exact IsTreeOf.exists_depth ⟨below c hc, token⟩
  obtain ⟨b, hb, le⟩ := Depths.deepest?_le_heightAll g.minDepths cs known
  rw [spelled] at hb
  have depth : g.minDepths.ofTokens? (g.tokenize expansion) = some (b + 1) := by
    simp [Depths.ofTokens?, hb]
  obtain ⟨d, found', le'⟩ := minDepths_le defined mem depth
  rw [found] at found'
  obtain rfl := Option.some.inj found'
  refine ⟨alternatives, expansion, defined, mem, ?_⟩
  rw [depth]
  simp only [Tree.height] at le' ⊢
  exact congrArg some (by omega)

end Grammar

end PreconditionMining
