/-
# The height of derived trees

From the depth bound on, a derivation takes shallowest alternatives only, so each
node there has exactly the height that is its symbol's depth
(`Derivation.lowPast`).  Before the bound every level adds one, which gives the
height of a whole tree (`Tree.LowPast.height_le`).

That a tree is low past the bound is a matter of its nodes and the depths they
stand at, and a mutant derives its new part at the depth of the old one.  So the
property is kept by mutation, and heights do not grow from mutant to mutant
(`Fuzzer.heights_bounded`).
-/

import PreconditionMining.Proofs.Fuzzer.Soundness

namespace PreconditionMining

namespace Tree

/-- Heights do not change when a tree of a list gives way to one of the same height. -/
theorem heightAll_set {cs : List Tree} {i : Nat} {c c' : Tree} (atChild : cs[i]? = some c)
    (same : c'.height = c.height) : heightAll (cs.set i c') = heightAll cs := by
  induction cs generalizing i with
  | nil => simp at atChild
  | cons d cs ih =>
    cases i with
    | zero =>
      obtain rfl : d = c := by simpa using atChild
      show max c'.height (heightAll cs) = max d.height (heightAll cs)
      rw [same]
    | succ i =>
      show max d.height (heightAll (cs.set i c')) = max d.height (heightAll cs)
      rw [ih (by simpa using atChild)]

/-- **A tree that is low past a bound:** from the bound on, each node has the height that a
table of depths gives for its symbol. -/
inductive LowPast (depths : Depths) (maxDepth : Nat) : Nat → Tree → Prop
  | terminal {depth : Nat} (text : String) : LowPast depths maxDepth depth (.terminal text)
  | node {depth : Nat} {symbol : String} {children : List Tree}
      (low : maxDepth ≤ depth → depths.find? symbol = some (Tree.node symbol children).height)
      (below : ∀ c ∈ children, LowPast depths maxDepth (depth + 1) c) :
      LowPast depths maxDepth depth (.node symbol children)

namespace LowPast

variable {depths : Depths} {maxDepth depth : Nat}

theorem child {symbol : String} {children : List Tree} {c : Tree}
    (h : LowPast depths maxDepth depth (.node symbol children)) (mem : c ∈ children) :
    LowPast depths maxDepth (depth + 1) c := by
  cases h with
  | node _ below => exact below c mem

/-- Past the bound a symbol tells the height. -/
theorem find?_eq {symbol : String} {t : Tree} (h : LowPast depths maxDepth depth t)
    (past : maxDepth ≤ depth) (token : t.token = .nonterminal symbol) :
    depths.find? symbol = some t.height := by
  cases h with
  | terminal text => cases token
  | node low below =>
    obtain rfl := Token.nonterminal.inj token
    exact low past

/-- Past the bound two trees of one symbol, or of one text, are equally high. -/
theorem height_eq {t u : Tree} (ht : LowPast depths maxDepth depth t)
    (hu : LowPast depths maxDepth depth u) (past : maxDepth ≤ depth) (alike : t.token = u.token) :
    t.height = u.height := by
  cases token : u.token with
  | nonterminal symbol =>
    have found := ht.find?_eq past (alike.trans token)
    rw [hu.find?_eq past token] at found
    exact (Option.some.inj found).symm
  | terminal text =>
    rw [token] at alike
    cases ht with
    | node => cases alike
    | terminal =>
      cases hu with
      | node => cases token
      | terminal => rfl

/-- Past the bound the tokens of trees tell their height. -/
theorem deepest?_eq (past : maxDepth ≤ depth) {cs : List Tree}
    (h : ∀ c ∈ cs, LowPast depths maxDepth depth c) :
    depths.deepest? (cs.map Tree.token) = some (heightAll cs) := by
  induction cs with
  | nil => rfl
  | cons c cs ih =>
    have later := ih fun c hc => h c (List.mem_cons_of_mem _ hc)
    have first := h c List.mem_cons_self
    cases c with
    | terminal text =>
      show depths.deepest? (cs.map Tree.token) = some (max 0 (heightAll cs))
      rw [later, Nat.zero_max]
    | node symbol children =>
      exact Depths.deepest?_nonterminal.2 ⟨_, _, first.find?_eq past rfl, later, rfl⟩

/-- **A tree that is low past a bound is no higher than** the way to the bound and the largest
depth together. -/
theorem height_le {t : Tree} (h : LowPast depths maxDepth depth t) :
    t.height ≤ maxDepth - depth + depths.largest := by
  induction h with
  | terminal text => exact Nat.zero_le _
  | @node depth symbol children low below ih =>
    by_cases past : maxDepth ≤ depth
    · have := Depths.le_largest (low past)
      omega
    · have limit : heightAll children ≤ maxDepth - (depth + 1) + depths.largest :=
        heightAll_le_iff.2 ih
      show heightAll children + 1 ≤ _
      omega

/-- **A tree stays low past a bound** when a part of it gives way to one of the same token that is
low past the bound at its depth. -/
theorem replace {t u old new : Tree} {p : Path} (h : LowPast depths maxDepth depth t)
    (here : t.get? p = some old) (low : LowPast depths maxDepth (depth + p.length) new)
    (alike : new.token = old.token) (replaced : t.replace? p new = some u) :
    LowPast depths maxDepth depth u := by
  refine (Tree.replace?_preserves ?_ ?_ alike p depth t u h here low replaced).1
  · intro d s cs c whole mem
    exact whole.child mem
  · intro d s cs i c c' whole atChild token part
    have mem := List.mem_of_getElem? atChild
    refine .node (fun past => ?_) fun e he => ?_
    · have same := part.height_eq (whole.child mem) (Nat.le_succ_of_le past) token
      rw [whole.find?_eq past rfl]
      show some (heightAll cs + 1) = some (heightAll (cs.set i c') + 1)
      rw [heightAll_set atChild same]
    · rcases List.mem_or_eq_of_mem_set he with he | rfl
      · exact whole.child he
      · exact part

end LowPast

end Tree

variable {ρ : Type} {chooser : Chooser ρ} {g : Grammar}

/-- **Derived trees are low past the bound.** -/
theorem Derivation.lowPast {maxDepth depth : Nat} {ts : List Token} {r r' : ρ} {trees : List Tree}
    (h : Derivation g maxDepth chooser false depth ts r trees r') :
    ∀ t ∈ trees, t.LowPast g.minDepths maxDepth depth := by
  induction h with
  | nil => simp
  | terminal _ ih => simpa using ⟨.terminal _, ih⟩
  | undefined allowed => cases allowed
  | barren allowed => cases allowed
  | @expand depth n alternatives first others ts r r₁ r₂ children trees defined choices below _
      ihBelow ih =>
    have chosen : (chooser.element first others r).1 ∈ g.choices maxDepth depth alternatives :=
      element_mem_choices choices r
    refine List.forall_mem_cons.2 ⟨.node (fun past => ?_) ihBelow, ih⟩
    have known := (Grammar.mem_choices_iff.1 chosen).2.1
    rw [← below.derives.1, Depths.ofTokens?,
      Tree.LowPast.deepest?_eq (Nat.le_succ_of_le past) ihBelow] at known
    rw [Grammar.find?_of_mem_choices past defined chosen]
    exact known.symm

namespace Fuzzer

variable {start f : Fuzzer ρ} {log : Log}

theorem Steady.lowPast {symbol : String} (steady : f.Steady chooser g symbol) {depth : Nat}
    {t : Tree} (drawn : f.Draws chooser symbol depth t) :
    t.LowPast g.minDepths f.options.maxDepth depth := by
  obtain ⟨r, rfl⟩ := drawn
  exact (steady depth r).lowPast _ List.mem_cons_self

/-- A mutant of a complete tree that is low past the bound is low past the bound. -/
theorem Mutates.lowPast (expansions : f.expansions = .ofGrammar g g.minDepths) {sample t : Tree}
    (complete : g.Derives sample) (low : sample.LowPast g.minDepths f.options.maxDepth 0)
    (mutant : f.Mutates chooser sample t) : t.LowPast g.minDepths f.options.maxDepth 0 := by
  obtain ⟨path, s, cs, subtree, found, drawn, replaced⟩ := mutant
  have here : g.IsTreeOf s (.node s cs) := ⟨complete.get? found, rfl⟩
  have steady : f.Steady chooser g s := steady_of_isTreeOf expansions here
  refine low.replace found ?_ (steady.isTreeOf drawn).2 replaced
  rw [Nat.zero_add]
  exact steady.lowPast drawn

/-- What a run returns is low past the bound. -/
theorem Run.lowPast {formula : Option Formula} {options : SolverOptions}
    {constraints : Constraints} {draws : ρ}
    (built : build g formula options constraints draws = .ok start)
    (run : Run chooser start log f) (own : log.OwnSamples) :
    ∀ t ∈ log.returned, t.LowPast g.minDepths options.maxDepth 0 := by
  obtain ⟨expansions, rfl, tree, finite⟩ := of_build built
  have steady : start.Steady chooser g startSymbol := steady_of_isTreeOf expansions finite
  have both : ∀ t ∈ log.returned, g.IsTreeOf startSymbol t ∧
      t.LowPast g.minDepths start.options.maxDepth 0 :=
    run.forall_returned own (fun t drawn => ⟨steady.isTreeOf drawn, steady.lowPast drawn⟩)
      fun sample t ⟨complete, low⟩ mutant =>
        ⟨mutant.isTreeOf expansions complete, mutant.lowPast expansions complete.1 low⟩
  exact fun t mem => (both t mem).2

/-- **Derivations end, and what they derive is bounded in height.**  For every symbol, depth and
bound the rules come to exactly one end, which is what `derive` gives.  From a symbol that has a
complete tree the height is the symbol's depth past the bound, and before it at most the way to
the bound and the largest depth together.  No tree that a run returns is higher than the bound
and the largest depth together, however often its samples were mutated. -/
theorem heights_bounded (g : Grammar) (chooser : Chooser ρ) :
    (∀ maxDepth symbol depth r, ∃ t r',
      (Expansions.ofGrammar g g.minDepths).derive maxDepth chooser symbol depth r = (t, r') ∧
        (∀ trees r'', Derivation g maxDepth chooser true depth [.nonterminal symbol] r trees r'' ↔
          trees = [t] ∧ r'' = r') ∧
        ∀ complete, g.IsTreeOf symbol complete →
          (maxDepth ≤ depth → g.minDepths.find? symbol = some t.height) ∧
          (depth < maxDepth → t.height ≤ maxDepth - depth + g.minDepths.largest)) ∧
    ∀ formula options constraints draws start log f,
      build g formula options constraints draws = .ok start → Run chooser start log f →
        log.OwnSamples → ∀ t ∈ log.returned,
          t.height ≤ options.maxDepth + g.minDepths.largest := by
  refine ⟨fun maxDepth symbol depth r => ?_, ?_⟩
  · cases derived : (Expansions.ofGrammar g g.minDepths).derive maxDepth chooser symbol depth r with
    | mk t r' =>
      refine ⟨t, r', rfl, fun trees r'' => ?_, fun complete h => ?_⟩
      · rw [Derivation.iff_derive, derived]
        constructor
        · rintro ⟨u, rfl, eq⟩
          obtain ⟨rfl, rfl⟩ := Prod.mk.inj eq
          exact ⟨rfl, rfl⟩
        · rintro ⟨rfl, rfl⟩
          exact ⟨t, rfl, rfl⟩
      · have derivation := Derivation.of_derive h derived
        have low := derivation.lowPast t List.mem_cons_self
        have token : t.token = .nonterminal symbol := by simpa using derivation.derives.1
        exact ⟨fun past => low.find?_eq past token, fun _ => low.height_le⟩
  · intro formula options constraints draws start log f built run own t mem
    exact (run.lowPast built own t mem).height_le

/-- The trees of `ab` and `aab` are low enough. -/
theorem heights_bounded_letters :
    build letters none {} .empty [0, 1, 1, 0, 1] = .ok (ofLetters [0, 1, 1, 0, 1]) ∧
      (∃ f, Run .scripted (ofLetters [0, 1, 1, 0, 1]) lettersLog f) ∧ lettersLog.OwnSamples ∧
        letters.minDepths.largest = 1 ∧ ∀ t ∈ lettersLog.returned, t.height ≤ 16 + 1 := by
  have built := build_letters [0, 1, 1, 0, 1]
  have largest : letters.minDepths.largest = 1 := by decide +kernel
  obtain ⟨f, run⟩ := run_letters
  refine ⟨built, ⟨f, run⟩, ownSamples_lettersLog, largest, fun t mem => ?_⟩
  have bound := (heights_bounded letters .scripted).2 none {} .empty _ _ _ _ built run
    ownSamples_lettersLog t mem
  rwa [largest] at bound

end Fuzzer

end PreconditionMining
