import StaticInit.Ints
import StaticInit.Refs
import StaticInit.Stage

/-!
# Evaluations

An evaluation owns a configuration and one static state. Its first run goes
through the static phase; later runs find the counter and the derived sum in
place. Then every run does the same: `incr` on a new base instance, `decr` on a
new derived one through a handle, `say`, and in the second program a pass over
arrays. The parts of a run are joined in order.
-/

namespace StaticInit

/-! ## The pass over arrays -/

namespace Arrays

/-- The length of each array. -/
def length : Nat := 10

/-- The bits that are stored; they read back as a negative number. -/
def pattern : UInt32 := 0xcafebabe

def greeting : String := "Hello, World."

/-- Allocates the arrays, stores the pattern in the first slot and loads it. -/
def roundTrip : Except Fault (Int32 × Event) := do
  let rows : Refs Ints := .nulls length
  let strings : Refs String := .nulls length
  let ints ← (Ints.zeros length).storePattern 0 pattern
  let readback ← ints.load 0
  return (readback, .arraysTouched readback rows.len strings.len greeting)

end Arrays

/-! ## Runs -/

structure Evaluation where
  config : Config
  statics : Statics := .fresh
  /-- Whether the static phase is behind. -/
  staticPhaseDone : Bool := false
deriving DecidableEq

/-- What a run gives: its report, its events, and the evaluation after it. -/
structure Run where
  report : Report
  events : List Event
  evaluation : Evaluation
deriving DecidableEq

namespace Evaluation

/-- The static phase where it is due. -/
def opening (e : Evaluation) : Stage :=
  if e.staticPhaseDone then Stage.skipped else Stage.staticPhase e.config

/-- `incr` on a new base instance, and in the second program `decr` on it. -/
def baseInstance : Program → Base × Trail
  | .sum => (Base.incr {}, ⟨[.baseIncremented], []⟩)
  | .helloWorld => ((Base.incr {}).decr.2, ⟨[.baseIncremented, .baseDecremented], []⟩)

/-- `decr` on a new derived instance through a handle. -/
def dispatch (mode : Override) : Handle × Trail :=
  match (Handle.derived { mode }).decr with
  | (resolved, h) => (h, ⟨[.dispatched h.kind resolved], [.dispatched h.kind resolved]⟩)

/-- `say` on the input and the derived sum. -/
def reporting (input sum : Int32) : Int32 × Trail :=
  (say input sum, ⟨[.reported (say input sum)], [.reported input sum (say input sum)]⟩)

/-- The pass over arrays where the program has one. -/
def arrays : Program → Except Fault (Option Int32 × Trail)
  | .sum => .ok (none, {})
  | .helloWorld =>
    match Arrays.roundTrip with
    | .ok (readback, event) => .ok (some readback, ⟨[.arraysTouched readback], [event]⟩)
    | .error fault => .error fault

/-- Runs all phases. The only faults are those of a state that no sequence of
runs leads to. -/
def run (e : Evaluation) : Except Fault Run := do
  let (statics, opened) := e.opening e.statics
  let sum ← statics.readSum
  let (base, based) := baseInstance e.config.program
  let (handle, dispatched) := dispatch e.config.mode
  let (result, reported) := reporting e.config.input sum
  let (readback?, touched) ← arrays e.config.program
  let trail := opened ++ based ++ dispatched ++ reported ++ touched
  return {
    report := {
      result
      derivedSum := sum
      counter := statics.counter
      baseAccumulator := base.accumulator
      derivedAccumulator := handle.accumulator
      readback?
      phases := trail.phases }
    events := trail.events
    evaluation := { e with statics, staticPhaseDone := true } }

/-- A run of which only the reported value is kept. -/
def value (e : Evaluation) : Except Fault (Int32 × Evaluation) :=
  e.run.map fun r => (r.report.result, r.evaluation)

/-- Fixes the derived sum from outside, through the static state. -/
def fixSum (e : Evaluation) : Int32 × Evaluation :=
  (e.statics.fixSum.1, { e with statics := e.statics.fixSum.2 })

/-- The reports of `n` runs in a row, and the evaluation after them. -/
def runs (e : Evaluation) : Nat → Except Fault (List Report × Evaluation)
  | 0 => .ok ([], e)
  | n + 1 => do
    let first ← e.run
    let (rest, last) ← runs first.evaluation n
    return (first.report :: rest, last)

end Evaluation

end StaticInit
