import StaticInit.Log
import StaticInit.Report

/-!
# The static phase

A stage takes the static state on and tells what it did, in phases for the
report and in events for the log (`Trail`). The static phase of a configuration
is a sequence of three stages (`Stage.inOrder`): either the counter is seeded,
the warmups run and the derived sum is fixed, or the sum is fixed first, while
the counter still reads 0, and the warmups are left out.
-/

namespace StaticInit

/-- What a part of a run leaves in the report and in the log. -/
structure Trail where
  phases : List Phase := []
  events : List Event := []
deriving DecidableEq

namespace Trail

def append (a b : Trail) : Trail := ⟨a.phases ++ b.phases, a.events ++ b.events⟩

instance : Append Trail := ⟨append⟩

@[simp] theorem phases_append (a b : Trail) : (a ++ b).phases = a.phases ++ b.phases := rfl
@[simp] theorem events_append (a b : Trail) : (a ++ b).events = a.events ++ b.events := rfl

end Trail

abbrev Stage := Statics → Statics × Trail

/-- The subclass `incr`, `n` times; `seen` gathers the counter after each. -/
def Derived.repeatIncr : Nat → Derived → Statics → Array Int32 → Statics × Array Int32
  | 0, _, s, seen => (s, seen)
  | n + 1, d, s, seen =>
    repeatIncr n (d.incr s).1 (d.incr s).2 (seen.push (d.incr s).2.counter)

namespace Stage

/-- One stage, and then another on the state it left. -/
def andThen (first second : Stage) : Stage := fun s =>
  ((second (first s).1).1, (first s).2 ++ (second (first s).1).2)

/-- Seeds the counter; a counter that is seeded already is kept. -/
def seedCounter (seed : Int32) : Stage := fun s =>
  match s.seedCounter seed with
  | (true, s') => (s', ⟨[.counterInitialized seed], [.counterSeeded seed]⟩)
  | (false, s') => (s', ⟨[], [.counterKept]⟩)

/-- Fixes the derived sum; the log tells only of a sum computed here. -/
def fixSum : Stage := fun s =>
  (s.fixSum.2,
    ⟨[.sumDerived s.counter s.fixSum.1],
      if s.sum?.isNone then [.sumFixed s.counter s.fixSum.1] else []⟩)

/-- The warmups: `count` times `incr` on one derived instance. -/
def warmUp (mode : Override) (count : UInt32) : Stage := fun s =>
  if count = 0 then (s, {}) else
    match Derived.repeatIncr count.toNat { mode } s #[] with
    | (s', seen) =>
      (s', ⟨seen.toList.map .warmupIncrement, [.warmupsDone count s'.counter]⟩)

/-- Warmups that come too late are left out and told of. -/
def skipWarmups (count : UInt32) : Stage := fun s =>
  if count = 0 then (s, {}) else (s, ⟨[.warmupSkipped count], [.warmupsSkipped count]⟩)

/-- The initializers in their order, with the warmups before the derived sum. -/
def inOrder (c : Config) : Stage :=
  match c.order with
  | .counterFirst => ((seedCounter c.seed).andThen (warmUp c.mode c.warmups)).andThen fixSum
  | .sumFirst => (fixSum.andThen (seedCounter c.seed)).andThen (skipWarmups c.warmups)

/-- The static phase of a configuration, announced in the log. -/
def staticPhase (c : Config) : Stage := fun s =>
  ((inOrder c s).1, ⟨[], [.staticPhase c.order]⟩ ++ (inOrder c s).2)

/-- What stands for the static phase once it is done. -/
def skipped : Stage := fun s => (s, ⟨[], [.staticPhaseSkipped]⟩)

end Stage

end StaticInit
