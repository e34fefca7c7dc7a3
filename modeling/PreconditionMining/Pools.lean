/-
# Example pools

Discovery files each sample by its verdict: a sample that triggers the condition
is positive, any other one is negative.  Each pool keeps the order in which the
samples came.
-/

import PreconditionMining.Tree

namespace PreconditionMining

/-- How many samples the two pools have. -/
structure PoolSizes where
  positive : Nat
  negative : Nat
deriving DecidableEq

namespace PoolSizes

/-- The sizes of empty pools. -/
def zero : PoolSizes := ⟨0, 0⟩

/-- The number of samples in both pools. -/
def total (s : PoolSizes) : Nat := s.positive + s.negative

/-- Whether neither pool is smaller than it was. -/
def dominates (s earlier : PoolSizes) : Bool :=
  earlier.positive ≤ s.positive && earlier.negative ≤ s.negative

theorem dominates_iff {s earlier : PoolSizes} :
    s.dominates earlier = true ↔ earlier.positive ≤ s.positive ∧ earlier.negative ≤ s.negative := by
  simp [dominates]

theorem dominates_trans {r s t : PoolSizes} (hrs : r.dominates s = true)
    (hst : s.dominates t = true) : r.dominates t = true := by
  rw [dominates_iff] at *
  omega

/-- The order by the positive pool first and the negative pool second. -/
def compare (s t : PoolSizes) : Ordering :=
  (Ord.compare s.positive t.positive).then (Ord.compare s.negative t.negative)

end PoolSizes

/-- The samples found so far, by their verdict. -/
structure Pools where
  positive : List Tree
  negative : List Tree
deriving DecidableEq

namespace Pools

/-- The pools without samples. -/
def empty : Pools := ⟨[], []⟩

/-- Files a sample by its verdict. -/
def push (pools : Pools) (sample : Tree) (triggered : Bool) : Pools :=
  if triggered then { pools with positive := pools.positive ++ [sample] }
  else { pools with negative := pools.negative ++ [sample] }

/-- The samples of both, those of the second coming later. -/
def append (pools more : Pools) : Pools :=
  ⟨pools.positive ++ more.positive, pools.negative ++ more.negative⟩

instance : Append Pools := ⟨append⟩

/-- How many samples each pool has. -/
def sizes (pools : Pools) : PoolSizes := ⟨pools.positive.length, pools.negative.length⟩

/-- Whether there is no sample yet. -/
def isEmpty (pools : Pools) : Bool := pools.positive.isEmpty && pools.negative.isEmpty

/-- All samples, the positive ones first. -/
def toList (pools : Pools) : List Tree := pools.positive ++ pools.negative

/-- The sample in the middle of each pool. -/
def midpoints (pools : Pools) : Option Tree × Option Tree :=
  (pools.positive[pools.positive.length / 2]?, pools.negative[pools.negative.length / 2]?)

@[simp] theorem positive_push (pools : Pools) (t : Tree) (b : Bool) :
    (pools.push t b).positive = pools.positive ++ if b then [t] else [] := by
  cases b <;> simp [push]

@[simp] theorem negative_push (pools : Pools) (t : Tree) (b : Bool) :
    (pools.push t b).negative = pools.negative ++ if b then [] else [t] := by
  cases b <;> simp [push]

@[simp] theorem positive_append (p q : Pools) : (p ++ q).positive = p.positive ++ q.positive := rfl

@[simp] theorem negative_append (p q : Pools) : (p ++ q).negative = p.negative ++ q.negative := rfl

@[simp] theorem empty_append (p : Pools) : empty ++ p = p := rfl

@[simp] theorem append_empty (p : Pools) : p ++ empty = p := by
  show append p empty = p
  simp [append, empty]

theorem append_assoc (p q r : Pools) : p ++ q ++ r = p ++ (q ++ r) := by
  show append (append p q) r = append p (append q r)
  simp [append]

/-- Filing one more sample makes the pools larger by one. -/
theorem total_sizes_push (pools : Pools) (t : Tree) (b : Bool) :
    (pools.push t b).sizes.total = pools.sizes.total + 1 := by
  cases b <;> simp [sizes, PoolSizes.total, push] <;> omega

theorem total_sizes_append (p q : Pools) :
    (p ++ q).sizes.total = p.sizes.total + q.sizes.total := by
  simp [sizes, PoolSizes.total]; omega

theorem total_sizes_eq (pools : Pools) : pools.sizes.total = pools.toList.length := by
  simp [sizes, PoolSizes.total, toList]

theorem sizes_append_dominates (p q : Pools) : (p ++ q).sizes.dominates p.sizes = true := by
  simp [sizes, PoolSizes.dominates]

end Pools

end PreconditionMining
