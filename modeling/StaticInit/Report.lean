import StaticInit.Instance

/-!
# Reports

What one run of an evaluation tells its caller: the values at its end, and its
phases in the order in which they happened.
-/

namespace StaticInit

inductive Phase where
  | counterInitialized (seed : Int32)
  /-- A subclass `incr` before the derived sum was fixed, with the counter after it. -/
  | warmupIncrement (counter : Int32)
  /-- Warmups asked for in an order that leaves no room for them. -/
  | warmupSkipped (count : UInt32)
  /-- The derived sum was fixed while the counter read `seed`. -/
  | sumDerived (seed sum : Int32)
  | baseIncremented
  | baseDecremented
  /-- A `decr` through a handle: what it holds, and whose code ran. -/
  | dispatched (runtime resolved : Kind)
  | reported (result : Int32)
  | arraysTouched (readback : Int32)
deriving DecidableEq

structure Report where
  /-- What `say` returned. -/
  result : Int32
  derivedSum : Int32
  /-- The counter after the run. -/
  counter : Int32
  baseAccumulator : Int32
  derivedAccumulator : Int32
  /-- The first array slot after the store, where the program has arrays. -/
  readback? : Option Int32
  phases : List Phase
deriving DecidableEq

end StaticInit
