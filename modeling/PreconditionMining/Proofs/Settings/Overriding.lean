/-
# Overriding settings

Options are made of settings: some always have a value, others may have none, and the free-form
entries are settings too, one for each key (`SolverSetting`).  An override does the same to all
of them: it gives a value, or leaves the setting as it is (`value?_apply`).  And options are
nothing but the values of their settings (`ext_value?`).

So what a list of overrides does is told for one setting at a time: the last override that gives
a value counts (`value?_foldl_apply_eq_some_iff`).  That it is the same to override twice by one
override, or in another order by overrides that have no setting in common, is seen at each
setting by itself.  `overrides_compose` puts these together.
-/

import Mathlib.Data.List.Pairwise
import PreconditionMining.Suite.Session

namespace PreconditionMining

/-- **The settings of a solver:** five that have names of their own, and one for each key of the
free-form entries. -/
inductive SolverSetting
  | timeoutMs
  | maxDepth
  | maxAttempts
  | distinct
  | seed
  | extra (key : String)

/-- The type of the values of a setting. -/
def SolverSetting.Content : SolverSetting → Type
  | timeoutMs | maxDepth | maxAttempts | seed => Nat
  | distinct => Bool
  | extra _ => Value

/-- The value that options have for a setting, if they have one. -/
def SolverOptions.value? (o : SolverOptions) : (s : SolverSetting) → Option s.Content
  | .timeoutMs => o.timeoutMs
  | .maxDepth => some o.maxDepth
  | .maxAttempts => some o.maxAttempts
  | .distinct => some o.distinct
  | .seed => o.seed
  | .extra key => o.extra.find? key

namespace SolverOverrides

/-- The value that an override sets a setting to, if it sets it. -/
def given? (v : SolverOverrides) : (s : SolverSetting) → Option s.Content
  | .timeoutMs => v.timeoutMs
  | .maxDepth => v.maxDepth
  | .maxAttempts => v.maxAttempts
  | .distinct => v.distinct
  | .seed => v.seed
  | .extra key => v.extra.find? key

/-- Overrides that set no setting both. -/
def Apart (v w : SolverOverrides) : Prop := ∀ s, v.given? s = none ∨ w.given? s = none

end SolverOverrides

namespace SolverOptions

open SolverOverrides

variable {o : SolverOptions} {v w : SolverOverrides}

/-- **Options are determined by the values of their settings.** -/
theorem ext_value? {a b : SolverOptions} (same : ∀ s, a.value? s = b.value? s) : a = b := by
  have entries : a.extra = b.extra := Dictionary.ext_find? fun key => same (.extra key)
  have maxDepth : a.maxDepth = b.maxDepth := Option.some.inj (same .maxDepth)
  have maxAttempts : a.maxAttempts = b.maxAttempts := Option.some.inj (same .maxAttempts)
  have distinct : a.distinct = b.distinct := Option.some.inj (same .distinct)
  have timeoutMs : a.timeoutMs = b.timeoutMs := same .timeoutMs
  have seed : a.seed = b.seed := same .seed
  cases a
  cases b
  simp_all only

/-- **An override gives a setting its value, or leaves the one it had.** -/
theorem value?_apply (o : SolverOptions) (v : SolverOverrides) (s : SolverSetting) :
    (o.apply v).value? s = (v.given? s).or (o.value? s) := by
  have getD {α : Type} (given : Option α) (a : α) : some (given.getD a) = given.or (some a) := by
    cases given <;> rfl
  cases s with
  | timeoutMs => rfl
  | maxDepth => exact getD v.maxDepth o.maxDepth
  | maxAttempts => exact getD v.maxAttempts o.maxAttempts
  | distinct => exact getD v.distinct o.distinct
  | seed => rfl
  | extra key => exact o.extra_apply v key

/-- A list of overrides gives a setting what the last of them that sets it does. -/
theorem value?_foldl_apply (vs : List SolverOverrides) (o : SolverOptions) (s : SolverSetting) :
    (vs.foldl apply o).value? s = (vs.reverse.findSome? (·.given? s)).or (o.value? s) := by
  induction vs generalizing o with
  | nil => rfl
  | cons v vs ih =>
    rw [List.foldl_cons, ih, value?_apply, ← Option.or_assoc, List.reverse_cons,
      List.findSome?_append, List.findSome?_singleton]

/-- **The value of a setting is the one that the last override setting it gives,** and the one it
had where none sets it. -/
theorem value?_foldl_apply_eq_some_iff {vs : List SolverOverrides} {s : SolverSetting}
    {x : s.Content} :
    (vs.foldl apply o).value? s = some x ↔
      (∃ before v after, vs = before ++ v :: after ∧ v.given? s = some x ∧
        ∀ w ∈ after, w.given? s = none) ∨
      (∀ v ∈ vs, v.given? s = none) ∧ o.value? s = some x := by
  rw [value?_foldl_apply, Option.or_eq_some_iff, List.findSome?_eq_some_iff,
    List.findSome?_eq_none_iff]
  refine or_congr ?_ (and_congr_left' (by simp only [List.mem_reverse]))
  constructor
  · rintro ⟨later, v, earlier, split, gives, unset⟩
    refine ⟨earlier.reverse, v, later.reverse, ?_, gives, by simpa using unset⟩
    rw [← List.reverse_reverse vs, split]
    simp
  · rintro ⟨before, v, after, rfl, gives, unset⟩
    exact ⟨after.reverse, v, before.reverse, by simp, gives, by simpa using unset⟩

/-- What sets nothing changes nothing. -/
theorem apply_of_unset (unset : ∀ s, v.given? s = none) : o.apply v = o :=
  ext_value? fun s => by rw [value?_apply, unset s, Option.none_or]

example (o : SolverOptions) : o.apply {} = o := apply_of_unset fun s => by cases s <;> rfl

/-- To override once more by the same changes nothing. -/
theorem apply_apply_self (o : SolverOptions) (v : SolverOverrides) :
    (o.apply v).apply v = o.apply v :=
  ext_value? fun s => by rw [value?_apply, value?_apply, ← Option.or_assoc, Option.or_self]

/-- **Overrides that have no setting in common commute.** -/
theorem apply_comm (apart : v.Apart w) (o : SolverOptions) :
    (o.apply v).apply w = (o.apply w).apply v :=
  ext_value? fun s => by
    simp only [value?_apply]
    rcases apart s with unset | unset <;> rw [unset, Option.none_or, Option.none_or]

/-- Overrides of which no two have a setting in common may come in any order. -/
theorem foldl_apply_perm {vs ws : List SolverOverrides} (apart : vs.Pairwise Apart)
    (reordered : vs.Perm ws) (o : SolverOptions) : vs.foldl apply o = ws.foldl apply o := by
  have : Std.Symm fun v w => ∀ o : SolverOptions, (o.apply v).apply w = (o.apply w).apply v :=
    ⟨fun _ _ commute o => (commute o).symm⟩
  have commute := (apart.imp apply_comm).forall_of_forall fun _ _ _ => rfl
  exact reordered.foldl_eq' (fun v hv w hw o => commute hv hw o) o

/-- **Overrides compose setting by setting.**  For all options and every list of overrides that are
applied to them one after another, a setting has a value when and only when the last override that
sets it sets it to that value, or no override sets it and the options had that value; so a key of
the free-form entries is there only where an override or the options have it.  To apply an override
twice is to apply it once, one that sets nothing changes nothing, and overrides that set no setting
both may be applied in either order, and any number of such in every order.  The solver of a test
gets the options of the suite after the overrides of the test, of which there is one or none. -/
theorem overrides_compose (o : SolverOptions) (vs : List SolverOverrides) :
    (∀ (s : SolverSetting) (x : s.Content), (vs.foldl apply o).value? s = some x ↔
      (∃ before v after, vs = before ++ v :: after ∧ v.given? s = some x ∧
        ∀ w ∈ after, w.given? s = none) ∨
      (∀ v ∈ vs, v.given? s = none) ∧ o.value? s = some x) ∧
    (∀ v, (o.apply v).apply v = o.apply v) ∧
    (∀ v, (∀ s, v.given? s = none) → o.apply v = o) ∧
    (∀ v w, v.Apart w → (o.apply v).apply w = (o.apply w).apply v) ∧
    (∀ ws, vs.Pairwise Apart → vs.Perm ws → vs.foldl apply o = ws.foldl apply o) ∧
    ∀ (ctx : Context) (t : ObservedTest),
      ctx.solverOptions t = t.options.solver.toList.foldl apply ctx.settings.solver := by
  refine ⟨fun s x => value?_foldl_apply_eq_some_iff, o.apply_apply_self,
    fun v => apply_of_unset, fun v w apart => apply_comm apart o,
    fun ws apart reordered => foldl_apply_perm apart reordered o, fun ctx t => ?_⟩
  rw [Context.solverOptions]
  cases t.options.solver with
  | none => rfl
  | some given => rfl

/-- The second override sets the depth again, and says nothing about the seed. -/
example :
    let o := [{ maxDepth := some 4, seed := some 7 }, { maxDepth := some 9 }].foldl apply {}
    o.maxDepth = 9 ∧ o.seed = some 7 ∧ o.maxAttempts = 1000 := ⟨rfl, rfl, rfl⟩

end SolverOptions

end PreconditionMining
