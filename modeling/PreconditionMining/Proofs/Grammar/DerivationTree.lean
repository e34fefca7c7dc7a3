/-
# Complete derivation trees

A tree is a complete derivation of a grammar when each of its nodes is expanded
by an alternative of the node's symbol: the children, read as tokens, are those
of the alternative (`Grammar.Derives`).  The least height of such trees is a
number that belongs to the symbol (`LeastHeight`), and there are not many of
these numbers: a symbol of least height `d + 2` needs one of least height
`d + 1`, so the least heights have no gaps and do not exceed the number of rules
(`LeastHeight.le_length_rules`).

A tree stays complete when a part of it is replaced by another complete tree of
the same symbol; `Tree.replace?_preserves` says for any property of trees at
their depths what this takes.
-/

import PreconditionMining.Grammar.Token
import PreconditionMining.Tree

namespace PreconditionMining

/-- What a tree is as a child: a piece of terminal text, or a nonterminal. -/
def Tree.token : Tree → Token
  | .terminal text => .terminal text
  | .node symbol _ => .nonterminal symbol

/-- A property of trees at their depths is kept by a replacement when it is a matter of the
children's properties and tokens, and the new subtree has the property and the old one's token. -/
theorem Tree.replace?_preserves {P : Nat → Tree → Prop}
    (child : ∀ d s cs c, P d (.node s cs) → c ∈ cs → P (d + 1) c)
    (change : ∀ d s cs i c c', P d (.node s cs) → cs[i]? = some c → c'.token = c.token →
      P (d + 1) c' → P d (.node s (cs.set i c')))
    {new old : Tree} (alike : new.token = old.token) :
    ∀ (p : Path) (d : Nat) (t u : Tree), P d t → t.get? p = some old → P (d + p.length) new →
      t.replace? p new = some u → P d u ∧ u.token = t.token
  | [], d, t, u, _, here, good, replaced => by
    obtain rfl : t = old := by simpa using here
    obtain rfl : new = u := by cases t <;> simpa [replace?] using replaced
    exact ⟨by simpa using good, alike⟩
  | i :: rest, d, t, u, ht, here, good, replaced => by
    cases t with
    | terminal text => simp [replace?] at replaced
    | node s cs =>
      cases atChild : cs[i]? with
      | none => simp [replace?, atChild] at replaced
      | some c =>
        cases below : c.replace? rest new with
        | none => simp [replace?, atChild, below] at replaced
        | some c' =>
          obtain rfl : Tree.node s (cs.set i c') = u := by
            simpa [replace?, atChild, below] using replaced
          have deeper : P (d + 1 + rest.length) new := by
            rw [show d + 1 + rest.length = d + (i :: rest).length by simp; omega]
            exact good
          obtain ⟨kept, token⟩ := Tree.replace?_preserves child change alike rest (d + 1) c c'
            (child d s cs c ht (List.mem_of_getElem? atChild))
            (by simpa [children, atChild] using here) deeper below
          exact ⟨change d s cs i c c' ht atChild token kept, rfl⟩

/-- A list of tokens is that of some trees with a property when each token is that of one. -/
theorem exists_trees_of_tokens {P : Tree → Prop} :
    ∀ ts : List Token, (∀ tok ∈ ts, ∃ t : Tree, t.token = tok ∧ P t) →
      ∃ cs : List Tree, cs.map Tree.token = ts ∧ ∀ c ∈ cs, P c
  | [], _ => ⟨[], rfl, by simp⟩
  | tok :: ts, h => by
    obtain ⟨t, token, ht⟩ := h tok List.mem_cons_self
    obtain ⟨cs, tokens, hcs⟩ := exists_trees_of_tokens ts fun x hx => h x (List.mem_cons_of_mem _ hx)
    exact ⟨t :: cs, by rw [List.map_cons, token, tokens], by simpa using ⟨ht, hcs⟩⟩

namespace Grammar

variable {g : Grammar}

/-- **A complete derivation tree:** each node has a defined symbol, and its children are, in
order, the tokens of one of the symbol's alternatives. -/
inductive Derives (g : Grammar) : Tree → Prop
  | terminal (text : String) : Derives g (.terminal text)
  | node {symbol : String} {alternatives : List String} {expansion : String}
      {children : List Tree} (defined : g.alternatives? symbol = some alternatives)
      (mem : expansion ∈ alternatives) (spelled : children.map Tree.token = g.tokenize expansion)
      (below : ∀ c ∈ children, Derives g c) : Derives g (.node symbol children)

/-- A complete derivation tree with a symbol at its root. -/
def IsTreeOf (g : Grammar) (symbol : String) (t : Tree) : Prop :=
  g.Derives t ∧ t.token = .nonterminal symbol

theorem IsTreeOf.exists_node {symbol : String} {t : Tree} (h : g.IsTreeOf symbol t) :
    ∃ alternatives expansion children, t = .node symbol children ∧
      g.alternatives? symbol = some alternatives ∧ expansion ∈ alternatives ∧
      children.map Tree.token = g.tokenize expansion ∧ ∀ c ∈ children, g.Derives c := by
  obtain ⟨derives, token⟩ := h
  cases derives with
  | terminal text => cases token
  | node defined mem spelled below =>
    obtain rfl := Token.nonterminal.inj token
    exact ⟨_, _, _, rfl, defined, mem, spelled, below⟩

/-- The subtrees of a complete tree are complete. -/
theorem Derives.get? {t u : Tree} {p : Path} (h : g.Derives t) (found : t.get? p = some u) :
    g.Derives u := by
  induction p generalizing t with
  | nil =>
    obtain rfl : t = u := by simpa using found
    exact h
  | cons i rest ih =>
    rw [Tree.get?_cons] at found
    obtain ⟨c, atChild, inside⟩ := Option.bind_eq_some_iff.1 found
    cases h with
    | terminal text => simp [Tree.children] at atChild
    | node _ _ _ below => exact ih (below c (List.mem_of_getElem? atChild)) inside

/-- **A complete tree stays complete** when a part of it is replaced by a complete tree of the
same symbol. -/
theorem Derives.replace {t u old new : Tree} {p : Path} (ht : g.Derives t)
    (here : t.get? p = some old) (hnew : g.Derives new) (alike : new.token = old.token)
    (replaced : t.replace? p new = some u) : g.Derives u ∧ u.token = t.token := by
  refine Tree.replace?_preserves (P := fun _ => g.Derives) ?_ ?_ alike p 0 t u ht here hnew replaced
  · intro _ s cs c h hc
    cases h with
    | node _ _ _ below => exact below c hc
  · intro _ s cs i c c' h atChild token hc'
    cases h with
    | node defined mem spelled below =>
      obtain ⟨lt, rfl⟩ := List.getElem?_eq_some_iff.1 atChild
      refine .node defined mem ?_ fun d hd => ?_
      · have same : (cs.map Tree.token).set i cs[i].token = cs.map Tree.token := by
          rw [← List.getElem_map Tree.token (h := by simpa using lt)]
          exact List.set_getElem_self _
        rw [List.map_set, token, same, spelled]
      · rcases List.mem_or_eq_of_mem_set hd with hd | rfl
        · exact below d hd
        · exact hc'

/-- The least height of the complete trees of a symbol. -/
def LeastHeight (g : Grammar) (symbol : String) (d : Nat) : Prop :=
  (∃ t, g.IsTreeOf symbol t ∧ t.height = d) ∧ ∀ t, g.IsTreeOf symbol t → d ≤ t.height

theorem LeastHeight.unique {symbol : String} {d e : Nat} (hd : g.LeastHeight symbol d)
    (he : g.LeastHeight symbol e) : d = e := by
  obtain ⟨⟨t, ht, rfl⟩, leastD⟩ := hd
  obtain ⟨⟨u, hu, rfl⟩, leastE⟩ := he
  exact Nat.le_antisymm (leastD u hu) (leastE t ht)

theorem IsTreeOf.exists_leastHeight {symbol : String} {t : Tree} (h : g.IsTreeOf symbol t) :
    ∃ d, g.LeastHeight symbol d ∧ d ≤ t.height := by
  by_cases lower : ∃ u, g.IsTreeOf symbol u ∧ u.height < t.height
  · obtain ⟨u, hu, lt⟩ := lower
    obtain ⟨d, least, le⟩ := hu.exists_leastHeight
    exact ⟨d, least, Nat.le_of_lt (Nat.lt_of_le_of_lt le lt)⟩
  · refine ⟨t.height, ⟨⟨t, h, rfl⟩, fun u hu => ?_⟩, Nat.le_refl _⟩
    exact Nat.not_lt.1 fun lt => lower ⟨u, hu, lt⟩
termination_by t.height

/-- The least heights have no gap. -/
theorem LeastHeight.exists_below {symbol : String} {d : Nat}
    (h : g.LeastHeight symbol (d + 2)) : ∃ other, g.LeastHeight other (d + 1) := by
  by_cases gap : ∃ other, g.LeastHeight other (d + 1)
  · exact gap
  exfalso
  obtain ⟨⟨t, ht, height⟩, least⟩ := h
  obtain ⟨alternatives, expansion, cs, rfl, defined, mem, spelled, below⟩ := ht.exists_node
  have low : ∀ c ∈ cs, c.height ≤ d + 1 :=
    Tree.heightAll_le_iff.1 (Nat.le_of_eq (Nat.succ.inj height))
  -- Without a symbol of least height `d + 1` each child can be had with height `d`.
  have lower : ∀ tok ∈ g.tokenize expansion, ∃ c : Tree, c.token = tok ∧
      (g.Derives c ∧ c.height ≤ d) := by
    rw [← spelled]
    intro tok htok
    obtain ⟨c, hc, rfl⟩ := List.mem_map.1 htok
    cases c with
    | terminal text => exact ⟨.terminal text, rfl, .terminal text, by simp [Tree.height]⟩
    | node n ds =>
      have hn : g.IsTreeOf n (.node n ds) := ⟨below _ hc, rfl⟩
      obtain ⟨e, leastE, le⟩ := hn.exists_leastHeight
      have notGap : e ≠ d + 1 := fun eq => gap ⟨n, eq ▸ leastE⟩
      obtain ⟨⟨c', hc', rfl⟩, -⟩ := leastE
      have := low _ hc
      exact ⟨c', hc'.2, hc'.1, by omega⟩
  obtain ⟨cs', tokens, good⟩ := exists_trees_of_tokens _ lower
  have bound := least (.node symbol cs')
    ⟨.node defined mem tokens fun c hc => (good c hc).1, rfl⟩
  have : Tree.heightAll cs' ≤ d := Tree.heightAll_le_iff.2 fun c hc => (good c hc).2
  simp only [Tree.height] at bound
  omega

theorem LeastHeight.mem_nonterminals {symbol : String} {d : Nat} (h : g.LeastHeight symbol d) :
    symbol ∈ g.nonterminals := by
  obtain ⟨⟨t, ht, -⟩, -⟩ := h
  obtain ⟨alternatives, -, -, -, defined, -⟩ := ht.exists_node
  refine Dictionary.contains_iff_mem_keys.1 ?_
  exact Option.isSome_iff_exists.2 ⟨alternatives, defined⟩

theorem LeastHeight.exists_chain :
    ∀ (d : Nat) (symbol : String), g.LeastHeight symbol (d + 1) →
      ∃ l : List String, l.length = d + 1 ∧ l.Nodup ∧
        ∀ n ∈ l, ∃ e, g.LeastHeight n e ∧ e ≤ d + 1
  | 0, symbol, h => ⟨[symbol], rfl, by simp, by simpa using ⟨1, h, Nat.le_refl 1⟩⟩
  | d + 1, symbol, h => by
    obtain ⟨other, below⟩ := h.exists_below
    obtain ⟨l, length, nodup, low⟩ := LeastHeight.exists_chain d other below
    refine ⟨symbol :: l, by simp [length], List.nodup_cons.2 ⟨fun mem => ?_, nodup⟩, ?_⟩
    · obtain ⟨e, least, le⟩ := low symbol mem
      have := h.unique least
      omega
    · intro n hn
      rcases List.mem_cons.1 hn with rfl | hn
      · exact ⟨d + 2, h, Nat.le_refl _⟩
      · obtain ⟨e, least, le⟩ := low n hn
        exact ⟨e, least, by omega⟩

/-- **No least height exceeds the number of rules.** -/
theorem LeastHeight.le_length_rules {symbol : String} {d : Nat} (h : g.LeastHeight symbol d) :
    d ≤ g.rules.entries.length := by
  cases d with
  | zero => exact Nat.zero_le _
  | succ d =>
    obtain ⟨l, length, nodup, low⟩ := LeastHeight.exists_chain d symbol h
    have known : l ⊆ g.nonterminals := by
      intro n hn
      obtain ⟨e, least, -⟩ := low n hn
      exact least.mem_nonterminals
    have := nodup.length_le_of_subset known
    simpa [nonterminals, Dictionary.keys, length] using this

end Grammar

end PreconditionMining
