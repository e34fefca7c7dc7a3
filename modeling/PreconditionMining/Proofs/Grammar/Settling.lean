/-
# The passes over a grammar's rules come to an end

`Depths.settle` makes at most a given number of passes.  `Depths.Settling` has
the passes alone, without such a number: they go on as long as the turn of some
rule changes the table, and end with the first table that no rule changes.

A turn never makes an entry larger, so a pass that gives back its table has
changed nothing on the way (`Depths.pass_eq_iff`).  The table of least heights
has nothing left to improve (`Grammar.quiet_minDepths`), and as many passes as
there are rules reach it; hence the passes end for every grammar, and they end
there: `Grammar.settling_iff`.
-/

import PreconditionMining.Proofs.Grammar.LeastHeight

namespace PreconditionMining

namespace Depths

variable {rules : List (String × List (List Token))} {depths result : Depths}

/-- No rule's turn changes the table. -/
def Quiet (rules : List (String × List (List Token))) (depths : Depths) : Prop :=
  ∀ rule ∈ rules, depths.improve rule = depths

/-- **The passes over rules,** from a table to the one that they end with.  There is a further
pass whenever some rule's turn changed the table in the last one. -/
inductive Settling (rules : List (String × List (List Token))) : Depths → Depths → Prop
  | stop {depths : Depths} (quiet : Quiet rules depths) : Settling rules depths depths
  | again {depths result : Depths} (changed : ¬ Quiet rules depths)
      (rest : Settling rules (pass rules depths) result) : Settling rules depths result

/-- Two tables that refine each other are the same. -/
theorem Refines.antisymm {a b : Depths} (hab : a.Refines b) (hba : b.Refines a) : a = b := by
  refine Dictionary.ext_find? fun n => ?_
  cases hb : b.find? n with
  | none =>
    cases ha : a.find? n with
    | none => rfl
    | some d =>
      obtain ⟨e, found, -⟩ := hba n d ha
      rw [hb] at found
      cases found
  | some d =>
    obtain ⟨e, ha, le⟩ := hab n d hb
    obtain ⟨d', hb', le'⟩ := hba n e ha
    obtain rfl : d = d' := Option.some.inj (hb.symm.trans hb')
    rw [ha, Nat.le_antisymm le le']

/-- **A pass gives back its table exactly when no rule's turn changed it.** -/
theorem pass_eq_iff : pass rules depths = depths ↔ Quiet rules depths := by
  induction rules with
  | nil => simp [pass, Quiet]
  | cons rule rules ih =>
    have step : pass (rule :: rules) depths = pass rules (depths.improve rule) := rfl
    rw [step, Quiet, List.forall_mem_cons, ← Quiet, ← ih]
    constructor
    · intro same
      -- no later turn can undo what the first one lowered
      have back : depths.Refines (depths.improve rule) := by
        have later := refines_pass rules (depths.improve rule)
        rwa [same] at later
      have turn := (refines_improve depths rule).antisymm back
      rw [turn] at same
      exact ⟨turn, same⟩
    · rintro ⟨turn, same⟩
      rw [turn, same]

/-- The passes lead to one end only. -/
theorem Settling.unique {other : Depths} (h : Settling rules depths result)
    (h' : Settling rules depths other) : result = other := by
  induction h with
  | stop quiet =>
    cases h' with
    | stop _ => rfl
    | again changed _ => exact absurd quiet changed
  | again changed _ ih =>
    cases h' with
    | stop quiet => exact absurd quiet changed
    | again _ rest => exact ih rest

/-- A number of passes is enough when the table after them is quiet. -/
theorem Settling.of_settle :
    ∀ {n : Nat} {depths : Depths}, Quiet rules (settle rules n depths) →
      Settling rules depths (settle rules n depths)
  | 0, _, quiet => .stop quiet
  | n + 1, depths, quiet => by
    unfold settle at quiet ⊢
    split
    · next same => exact .stop (pass_eq_iff.1 same)
    · next changed =>
      rw [if_neg changed] at quiet
      exact .again (fun idle => changed (pass_eq_iff.2 idle)) (Settling.of_settle quiet)

end Depths

namespace Grammar

/-- A table of heights of trees refines the table of least heights only by being the same. -/
theorem Realises.refines {g : Grammar} {depths : Depths} (h : g.Realises depths) :
    g.minDepths.Refines depths := by
  intro n d found
  obtain ⟨t, ht, rfl⟩ := h n d found
  exact ht.exists_depth

/-- **The table of least heights has nothing left to improve.** -/
theorem quiet_minDepths (g : Grammar) : Depths.Quiet g.tokenRules g.minDepths := by
  refine Depths.pass_eq_iff.1 ?_
  have realised : g.Realises (Depths.pass g.tokenRules g.minDepths) :=
    realises_pass (List.Subset.refl _) (realises_minDepths g)
  exact (Depths.refines_pass g.tokenRules g.minDepths).antisymm realised.refines

/-- **The passes over the rules of a grammar end,** and always with its depths. -/
theorem settling_iff (g : Grammar) {result : Depths} :
    Depths.Settling g.tokenRules .empty result ↔ result = g.minDepths := by
  have ends : Depths.Settling g.tokenRules .empty g.minDepths :=
    .of_settle g.quiet_minDepths
  constructor
  · exact fun h => h.unique ends
  · rintro rfl
    exact ends

end Grammar

end PreconditionMining
