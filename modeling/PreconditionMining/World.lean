/-
# Probes and the world that holds their state

A probe is a counter that a test body triggers.  It is known by its number; its
description is for people.  The state of all probes is one value, the world: for
each probe how often it was triggered since its last reset, and whether an
observation holds it.

`cell_modify` is the only fact about the representation: changing the cell of
one probe changes what is read there and nowhere else.
-/

namespace PreconditionMining

/-- A trigger counter; two probes are the same when their numbers are. -/
structure Probe where
  id : Nat
  description : String
deriving DecidableEq, Inhabited

/-- What the world knows about one probe. -/
structure Cell where
  /-- How often the probe was triggered since its last reset. -/
  count : Nat
  /-- Whether a live observation holds the probe. -/
  inFlight : Bool
deriving DecidableEq

/-- The cell of a probe that nothing has happened to. -/
def Cell.fresh : Cell := ⟨0, false⟩

/-- The state of all probes: the cell of probe `n` stands at place `n`, and the
probes past the end are fresh. -/
structure World where
  cells : List Cell
deriving DecidableEq

namespace World

/-- The world in which nothing has happened yet. -/
def initial : World := ⟨[]⟩

/-- The cell of a probe. -/
def cell (w : World) (p : Probe) : Cell := (w.cells[p.id]?).getD Cell.fresh

/-- Changes the cell at a place, adding fresh cells up to it where there are none. -/
def modifyAt (f : Cell → Cell) : Nat → List Cell → List Cell
  | 0, [] => [f Cell.fresh]
  | 0, c :: cs => f c :: cs
  | n + 1, [] => Cell.fresh :: modifyAt f n []
  | n + 1, c :: cs => c :: modifyAt f n cs

/-- Changes the cell of a probe. -/
def modify (w : World) (p : Probe) (f : Cell → Cell) : World := ⟨modifyAt f p.id w.cells⟩

theorem getD_modifyAt (f : Cell → Cell) :
    ∀ (n m : Nat) (cs : List Cell),
      ((modifyAt f n cs)[m]?).getD Cell.fresh =
        if m = n then f ((cs[m]?).getD Cell.fresh) else (cs[m]?).getD Cell.fresh
  | 0, 0, [] => rfl
  | 0, m + 1, [] => by simp [modifyAt]
  | 0, 0, c :: cs => rfl
  | 0, m + 1, c :: cs => by simp [modifyAt]
  | n + 1, 0, [] => by simp [modifyAt]
  | n + 1, m + 1, [] => by simpa [modifyAt] using getD_modifyAt f n m []
  | n + 1, 0, c :: cs => by simp [modifyAt]
  | n + 1, m + 1, c :: cs => by simpa [modifyAt] using getD_modifyAt f n m cs

/-- **A change of one cell is read at its probe and at no other.** -/
theorem cell_modify (w : World) (p q : Probe) (f : Cell → Cell) :
    (w.modify p f).cell q = if q.id = p.id then f (w.cell q) else w.cell q :=
  getD_modifyAt f p.id q.id w.cells

/-- How often a probe was triggered since its last reset. -/
def count (w : World) (p : Probe) : Nat := (w.cell p).count

/-- Whether a probe was triggered since its last reset. -/
def triggered (w : World) (p : Probe) : Bool := 0 < w.count p

/-- Whether a live observation holds a probe. -/
def inFlight (w : World) (p : Probe) : Bool := (w.cell p).inFlight

theorem inFlight_of_id {w : World} {p q : Probe} (h : p.id = q.id) :
    w.inFlight p = w.inFlight q := by
  simp [inFlight, cell, h]

/-- Triggers a probe a number of times. -/
def trigger (w : World) (p : Probe) (times : Nat) : World :=
  w.modify p fun c => { c with count := c.count + times }

/-- Forgets the triggers of a probe. -/
def reset (w : World) (p : Probe) : World := w.modify p fun c => { c with count := 0 }

/-- Marks a probe as held by an observation. -/
def hold (w : World) (p : Probe) : World := w.modify p fun c => { c with inFlight := true }

/-- Marks a probe as held by no observation. -/
def free (w : World) (p : Probe) : World := w.modify p fun c => { c with inFlight := false }

/-- Forgets the triggers of several probes. -/
def resetAll (w : World) (ps : List Probe) : World := ps.foldl reset w

/-- Frees several probes. -/
def freeAll (w : World) (ps : List Probe) : World := ps.foldl free w

@[simp] theorem count_trigger (w : World) (p q : Probe) (k : Nat) :
    (w.trigger p k).count q = if q.id = p.id then w.count q + k else w.count q := by
  simp only [count, trigger, cell_modify]; split <;> rfl

@[simp] theorem inFlight_trigger (w : World) (p q : Probe) (k : Nat) :
    (w.trigger p k).inFlight q = w.inFlight q := by
  simp only [inFlight, trigger, cell_modify]; split <;> rfl

@[simp] theorem count_reset (w : World) (p q : Probe) :
    (w.reset p).count q = if q.id = p.id then 0 else w.count q := by
  simp only [count, reset, cell_modify]; split <;> rfl

@[simp] theorem inFlight_reset (w : World) (p q : Probe) :
    (w.reset p).inFlight q = w.inFlight q := by
  simp only [inFlight, reset, cell_modify]; split <;> rfl

@[simp] theorem count_hold (w : World) (p q : Probe) : (w.hold p).count q = w.count q := by
  simp only [count, hold, cell_modify]; split <;> rfl

@[simp] theorem inFlight_hold (w : World) (p q : Probe) :
    (w.hold p).inFlight q = if q.id = p.id then true else w.inFlight q := by
  simp only [inFlight, hold, cell_modify]; split <;> rfl

@[simp] theorem count_free (w : World) (p q : Probe) : (w.free p).count q = w.count q := by
  simp only [count, free, cell_modify]; split <;> rfl

@[simp] theorem inFlight_free (w : World) (p q : Probe) :
    (w.free p).inFlight q = if q.id = p.id then false else w.inFlight q := by
  simp only [inFlight, free, cell_modify]; split <;> rfl

@[simp] theorem inFlight_resetAll (ps : List Probe) (w : World) (q : Probe) :
    (w.resetAll ps).inFlight q = w.inFlight q := by
  induction ps generalizing w with
  | nil => rfl
  | cons p ps ih => simpa [resetAll] using ih (w.reset p)

/-- **A reset of several probes forgets the triggers of these and no others.** -/
@[simp] theorem count_resetAll (ps : List Probe) (w : World) (q : Probe) :
    (w.resetAll ps).count q = if q.id ∈ ps.map (·.id) then 0 else w.count q := by
  induction ps generalizing w with
  | nil => simp [resetAll]
  | cons p ps ih =>
    have step : (w.resetAll (p :: ps)) = (w.reset p).resetAll ps := rfl
    rw [step, ih, count_reset]
    by_cases same : q.id = p.id <;> by_cases later : q.id ∈ ps.map (·.id) <;> simp_all

@[simp] theorem count_freeAll (ps : List Probe) (w : World) (q : Probe) :
    (w.freeAll ps).count q = w.count q := by
  induction ps generalizing w with
  | nil => rfl
  | cons p ps ih => simpa [freeAll] using ih (w.free p)

@[simp] theorem inFlight_freeAll (ps : List Probe) (w : World) (q : Probe) :
    (w.freeAll ps).inFlight q = if q.id ∈ ps.map (·.id) then false else w.inFlight q := by
  induction ps generalizing w with
  | nil => simp [freeAll]
  | cons p ps ih =>
    have step : (w.freeAll (p :: ps)) = (w.free p).freeAll ps := rfl
    rw [step, ih, inFlight_free]
    by_cases same : q.id = p.id <;> by_cases later : q.id ∈ ps.map (·.id) <;> simp_all

end World

end PreconditionMining
