/-
# Which trees can be derived

Before the depth bound a derivation may choose any alternative that leads to finite
trees, and from the bound on any shallowest one.  So a complete tree can be derived
when and only when its nodes from the bound on are expanded as shallowly as their
symbols allow (`Grammar.ShallowFrom`): no other tree is lost, and no other one comes
about (`Grammar.derives_shallow_trees`).  A tree that is no higher than the bound
has no node from the bound on.

One direction reads the choices off the tree.  Each node tells which alternative
was chosen, namely one with the tokens of its children, and that one is among the
choices (`Grammar.mem_choices_iff`).  The numbers of the chosen alternatives, from
the root down and from left to right, are a script for the chooser
(`Derivation.of_shallowFrom`).  The other direction follows the rules
(`Derivation.shallowFrom`).
-/

import PreconditionMining.Proofs.Fuzzer.Soundness

namespace PreconditionMining

/-- A node stands less deep than its tree is high. -/
theorem Tree.length_lt_height {symbol : String} {cs : List Tree} :
    ∀ {path : Path} {t : Tree}, t.get? path = some (.node symbol cs) → path.length < t.height
  | [], t, here => by
    obtain rfl : t = .node symbol cs := by simpa using here
    exact Nat.succ_pos _
  | i :: rest, t, here => by
    rw [Tree.get?_cons] at here
    obtain ⟨c, atChild, inside⟩ := Option.bind_eq_some_iff.1 here
    have deeper := Tree.length_lt_height inside
    cases t with
    | terminal text => simp [Tree.children] at atChild
    | node s ds =>
      have below : c.height ≤ Tree.heightAll ds :=
        Tree.heightAll_le_iff.1 (Nat.le_refl _) c (List.mem_of_getElem? atChild)
      show rest.length + 1 < Tree.heightAll ds + 1
      omega

/-- A script names the element that is chosen. -/
theorem Chooser.element_scripted {α : Type} {first : α} {rest : List α} {k : Nat}
    (h : k < (first :: rest).length) (ks : List Nat) :
    Chooser.scripted.element first rest (k :: ks) = ((first :: rest)[k], ks) := by
  have picked : Chooser.scripted.pick rest.length (k :: ks) = (⟨k, h⟩, ks) :=
    Prod.ext (dif_pos h) rfl
  rw [Chooser.element, picked]
  rfl

namespace Grammar

variable {g : Grammar} {maxDepth depth : Nat}

/-- **A node is expanded as shallowly as its symbol allows:** by an alternative of least depth
among those that have a depth. -/
def ExpandsShallowly (g : Grammar) (symbol : String) (children : List Tree) : Prop :=
  ∃ alternatives expansion, g.alternatives? symbol = some alternatives ∧
    expansion ∈ alternatives ∧ children.map Tree.token = g.tokenize expansion ∧
    ∃ d, g.expansionDepth? expansion g.minDepths = some d ∧
      ∀ other ∈ alternatives, ∀ e, g.expansionDepth? other g.minDepths = some e → d ≤ e

/-- **Each node from a level on is expanded as shallowly as its symbol allows;** the root is at
level 0. -/
def ShallowFrom (g : Grammar) (level : Nat) (t : Tree) : Prop :=
  ∀ path symbol children, t.get? path = some (.node symbol children) → level ≤ path.length →
    g.ExpandsShallowly symbol children

theorem shallowFrom_terminal (level : Nat) (text : String) :
    g.ShallowFrom level (.terminal text) := by
  intro path symbol children here
  cases path <;> simp [Tree.children] at here

/-- A tree is expanded shallowly from a level on when its root is, if the level is that of the
root, and its children are from one level less on. -/
theorem shallowFrom_node {level : Nat} {symbol : String} {children : List Tree} :
    g.ShallowFrom level (.node symbol children) ↔
      (level = 0 → g.ExpandsShallowly symbol children) ∧
        ∀ c ∈ children, g.ShallowFrom (level - 1) c := by
  constructor
  · refine fun h => ⟨fun root => h [] symbol children (by simp) (by simp [root]), ?_⟩
    intro c mem path s cs here deep
    obtain ⟨i, atChild⟩ := List.mem_iff_getElem?.1 mem
    refine h (i :: path) s cs (by simp [Tree.children, atChild, here]) ?_
    rw [List.length_cons]
    omega
  · rintro ⟨root, below⟩ path s cs here deep
    cases path with
    | nil =>
      obtain ⟨rfl, rfl⟩ : symbol = s ∧ children = cs := by simpa using here
      exact root (Nat.le_zero.1 deep)
    | cons i path =>
      rw [Tree.get?_cons] at here
      obtain ⟨c, atChild, inside⟩ := Option.bind_eq_some_iff.1 here
      rw [List.length_cons] at deep
      exact below c (List.mem_of_getElem? atChild) path s cs inside (by omega)

/-- A tree has no nodes from its height on. -/
theorem shallowFrom_of_height_le {level : Nat} {t : Tree} (low : t.height ≤ level) :
    g.ShallowFrom level t := by
  intro path symbol children here deep
  have := Tree.length_lt_height here
  omega

/-- The alternative that expands a node is among the choices at the node's depth. -/
theorem exists_choice {symbol expansion : String} {alternatives : List String}
    {children : List Tree} (defined : g.alternatives? symbol = some alternatives)
    (mem : expansion ∈ alternatives) (spelled : children.map Tree.token = g.tokenize expansion)
    (below : ∀ c ∈ children, g.Derives c)
    (shallow : maxDepth ≤ depth → g.ExpandsShallowly symbol children) :
    ∃ a ∈ g.choices maxDepth depth alternatives, a.tokens = children.map Tree.token := by
  obtain ⟨b, known, -⟩ := Depths.deepest?_le_heightAll g.minDepths children fun c hc n token =>
    IsTreeOf.exists_depth ⟨below c hc, token⟩
  rw [spelled] at known ⊢
  have depthOf : g.minDepths.ofTokens? (g.tokenize expansion) = some (b + 1) := by
    rw [Depths.ofTokens?, known]
    rfl
  refine ⟨⟨g.tokenize expansion, b + 1⟩, ?_, rfl⟩
  refine mem_choices_iff.2 ⟨⟨expansion, mem, rfl⟩, depthOf, ?_⟩
  intro past other hother e hdepth
  obtain ⟨alternatives', expansion', defined', -, spelled', d, least, le⟩ := shallow past
  obtain rfl := Option.some.inj (defined.symm.trans defined')
  rw [expansionDepth?, ← spelled', spelled, depthOf] at least
  obtain rfl := Option.some.inj least
  exact le other hother e hdepth

end Grammar

namespace Derivation

variable {g : Grammar} {maxDepth depth : Nat} {fallback : Bool}

/-- Scripts for some trees, one after another, are a script for all of them. -/
theorem exists_script {cs : List Tree}
    (each : ∀ c ∈ cs, ∀ r, ∃ script,
      Derivation g maxDepth .scripted fallback depth [c.token] (script ++ r) [c] r) :
    ∀ r, ∃ script,
      Derivation g maxDepth .scripted fallback depth (cs.map Tree.token) (script ++ r) cs r := by
  induction cs with
  | nil => exact fun r => ⟨[], .nil⟩
  | cons c cs ih =>
    intro r
    obtain ⟨later, rest⟩ := ih (fun d hd => each d (List.mem_cons_of_mem _ hd)) r
    obtain ⟨now, first⟩ := each c List.mem_cons_self (later ++ r)
    refine ⟨now ++ later, ?_⟩
    rw [List.append_assoc]
    cases c with
    | terminal text =>
      cases first with
      | terminal done =>
        generalize now ++ (later ++ r) = q at done
        cases done
        exact .terminal rest
    | node symbol children => exact first.cons rest

/-- **A complete tree that is shallow from the bound on is derived,** when its choices are made. -/
theorem of_shallowFrom {t : Tree} (h : g.Derives t) :
    ∀ depth, g.ShallowFrom (maxDepth - depth) t → ∀ r, ∃ script,
      Derivation g maxDepth .scripted fallback depth [t.token] (script ++ r) [t] r := by
  induction h with
  | terminal text => exact fun _ _ r => ⟨[], .terminal .nil⟩
  | @node symbol alternatives expansion children defined mem spelled below ih =>
    intro depth shallow r
    obtain ⟨root, deeper⟩ := Grammar.shallowFrom_node.1 shallow
    have atRoot : maxDepth ≤ depth → g.ExpandsShallowly symbol children :=
      fun past => root (by omega)
    obtain ⟨a, chosen, tokens⟩ := Grammar.exists_choice defined mem spelled below atRoot
    have each : ∀ c ∈ children, ∀ r, ∃ script,
        Derivation g maxDepth .scripted fallback (depth + 1) [c.token] (script ++ r) [c] r :=
      fun c hc => ih c hc (depth + 1) (by rw [← Nat.sub_sub]; exact deeper c hc)
    obtain ⟨script, derived⟩ := exists_script each r
    cases choices : g.choices maxDepth depth alternatives with
    | nil => simp [choices] at chosen
    | cons first others =>
      rw [choices] at chosen
      obtain ⟨k, inRange, rfl⟩ := List.mem_iff_getElem.1 chosen
      have pick := Chooser.element_scripted inRange (script ++ r)
      refine ⟨k :: script, .expand defined choices ?_ .nil⟩
      rw [List.cons_append, pick, tokens]
      exact derived

/-- **What is derived without falling back is shallow from the bound on.** -/
theorem shallowFrom {ρ : Type} {chooser : Chooser ρ} {ts : List Token} {r r' : ρ}
    {trees : List Tree} (h : Derivation g maxDepth chooser false depth ts r trees r') :
    ∀ t ∈ trees, g.ShallowFrom (maxDepth - depth) t := by
  induction h with
  | nil => exact fun t mem => absurd mem List.not_mem_nil
  | terminal _ ih => exact List.forall_mem_cons.2 ⟨Grammar.shallowFrom_terminal _ _, ih⟩
  | undefined allowed => cases allowed
  | barren allowed => cases allowed
  | @expand depth n alternatives first others ts r r₁ r₂ children trees defined choices below rest
      ihBelow ih =>
    refine List.forall_mem_cons.2 ⟨Grammar.shallowFrom_node.2 ⟨fun root => ?_, ?_⟩, ih⟩
    · obtain ⟨⟨expansion, mem, tokens⟩, known, least⟩ :=
        Grammar.mem_choices_iff.1 (element_mem_choices choices r)
      refine ⟨alternatives, expansion, defined, mem, below.derives.1.trans tokens.symm, _, ?_,
        least (by omega)⟩
      rw [Grammar.expansionDepth?, tokens]
      exact known
    · rw [Nat.sub_sub]
      exact ihBelow

end Derivation

/-- **No part of the language within the bound is lost.**  A complete tree of a symbol can be
derived from the symbol, by making the right choices, when and only when each of its nodes from the
depth bound on is expanded by an alternative of least depth.  So each complete tree that is no
higher than the bound can be derived. -/
theorem Grammar.derives_shallow_trees {g : Grammar} {symbol : String} {t : Tree}
    (complete : g.IsTreeOf symbol t) (maxDepth : Nat) :
    (g.ShallowFrom maxDepth t ↔
      ∃ script, (Expansions.ofGrammar g g.minDepths).derive maxDepth .scripted symbol 0 script =
        (t, [])) ∧
    (t.height ≤ maxDepth →
      ∃ script, (Expansions.ofGrammar g g.minDepths).derive maxDepth .scripted symbol 0 script =
        (t, [])) := by
  have derived : g.ShallowFrom maxDepth t →
      ∃ script, (Expansions.ofGrammar g g.minDepths).derive maxDepth .scripted symbol 0 script =
        (t, []) := by
    intro shallow
    obtain ⟨script, derivation⟩ := Derivation.of_shallowFrom complete.1 0 shallow []
    rw [complete.2, List.append_nil] at derivation
    obtain ⟨u, same, gives⟩ := Derivation.iff_derive.1 derivation
    obtain rfl := List.singleton_inj.1 same
    exact ⟨script, gives⟩
  refine ⟨⟨derived, ?_⟩, fun low => derived (shallowFrom_of_height_le low)⟩
  rintro ⟨script, gives⟩
  exact (Derivation.of_derive complete gives).shallowFrom t List.mem_cons_self

/-- The tree of `ab` is higher than a bound of 1, but its lower node is expanded as shallowly as
possible; so it can be derived. -/
theorem Grammar.derives_shallow_trees_letters :
    let t : Tree := .node "<start>" [.terminal "a", .node "<start>" [.terminal "b"]]
    letters.IsTreeOf startSymbol t ∧ t.height = 2 ∧ letters.ShallowFrom 1 t ∧
      ∃ script, (Expansions.ofGrammar letters letters.minDepths).derive 1 .scripted startSymbol 0
        script = (t, []) := by
  have rules : letters.alternatives? "<start>" = some ["<loop>", "a<start>", "b"] := by
    decide +kernel
  have read : letters.tokenize "a<start>" = [.terminal "a", .nonterminal "<start>"] ∧
      letters.tokenize "b" = [.terminal "b"] := by decide +kernel
  have lower : letters.IsTreeOf startSymbol (.node "<start>" [.terminal "b"]) :=
    ⟨.node rules (show "b" ∈ _ by decide) read.2.symm (by simpa using .terminal "b"), rfl⟩
  have complete : letters.IsTreeOf startSymbol
      (.node "<start>" [.terminal "a", .node "<start>" [.terminal "b"]]) :=
    ⟨.node rules (show "a<start>" ∈ _ by decide) read.1.symm
      (by simpa using ⟨.terminal "a", lower.1⟩), rfl⟩
  have thrifty : letters.ExpandsShallowly "<start>" [.terminal "b"] := by
    refine ⟨_, "b", rules, by decide, read.2.symm, 1, ?_, fun other _ e known => ?_⟩
    · rw [expansionDepth?, read.2]
      rfl
    · obtain ⟨d, -, rfl⟩ := Option.map_eq_some_iff.1 known
      exact Nat.succ_pos d
  have shallow : letters.ShallowFrom 1
      (.node "<start>" [.terminal "a", .node "<start>" [.terminal "b"]]) := by
    refine shallowFrom_node.2 ⟨fun root => absurd root Nat.one_ne_zero, List.forall_mem_cons.2
      ⟨shallowFrom_terminal _ _, List.forall_mem_singleton.2 (shallowFrom_node.2 ⟨fun _ => thrifty,
        List.forall_mem_singleton.2 (shallowFrom_terminal _ _)⟩)⟩⟩
  exact ⟨complete, rfl, shallow, (derives_shallow_trees complete 1).1.1 shallow⟩

end PreconditionMining
