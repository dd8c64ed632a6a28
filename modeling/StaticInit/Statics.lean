import StaticInit.Fault
import StaticInit.Series

/-!
# Static state

The counter and the derived sum, each initialized at most once. The counter
reads 0 until `seedCounter` sets it; later calls leave it alone. The first
`fixSum` computes the derived sum from the counter as it stands then, and every
later one returns that same value; `readSum` never computes it.
-/

namespace StaticInit

structure Statics where
  counter : Int32 := 0
  seeded : Bool := false
  /-- The derived sum, once it is fixed. -/
  sum? : Option Int32 := none
deriving DecidableEq

namespace Statics

/-- Nothing initialized: the counter reads 0 and there is no derived sum. -/
def fresh : Statics := {}

/-- Seeds the counter unless that was done before, and says whether it did. -/
def seedCounter (s : Statics) (seed : Int32) : Bool × Statics :=
  if s.seeded then (false, s) else (true, { s with counter := seed, seeded := true })

/-- Adds one to the counter, initialized or not. -/
def bump (s : Statics) : Statics := { s with counter := s.counter + 1 }

/-- The derived sum, computed from the counter if it is not fixed yet. -/
def fixSum (s : Statics) : Int32 × Statics :=
  match s.sum? with
  | some sum => (sum, s)
  | none => (Series.sumFrom s.counter, { s with sum? := some (Series.sumFrom s.counter) })

/-- The derived sum if it is fixed. -/
def readSum (s : Statics) : Except Fault Int32 :=
  match s.sum? with
  | some sum => .ok sum
  | none => .error .sumUnset

@[simp] theorem counter_bump (s : Statics) : s.bump.counter = s.counter + 1 := rfl
@[simp] theorem seeded_bump (s : Statics) : s.bump.seeded = s.seeded := rfl
@[simp] theorem sum?_bump (s : Statics) : s.bump.sum? = s.sum? := rfl

@[simp] theorem counter_fixSum (s : Statics) : s.fixSum.2.counter = s.counter := by
  unfold fixSum; split <;> rfl

@[simp] theorem seeded_fixSum (s : Statics) : s.fixSum.2.seeded = s.seeded := by
  unfold fixSum; split <;> rfl

/-- What `fixSum` returns is fixed from then on. -/
@[simp] theorem sum?_fixSum (s : Statics) : s.fixSum.2.sum? = some s.fixSum.1 := by
  unfold fixSum; split <;> simp_all

@[simp] theorem sum?_seedCounter (s : Statics) (seed : Int32) :
    (s.seedCounter seed).2.sum? = s.sum? := by
  unfold seedCounter; split <;> rfl

@[simp] theorem seeded_seedCounter (s : Statics) (seed : Int32) :
    (s.seedCounter seed).2.seeded = true := by
  unfold seedCounter; split <;> simp_all

end Statics

end StaticInit
