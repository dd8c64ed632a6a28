import StaticInit.Script.Effect
import StaticInit.Script.Store

/-!
# Running a script

The steps of a script act on one store, one after another, and each is
answered at once with its result and the view of its object after it. A step
that cannot be read, or does not fit the objects it mentions, is rejected and
leaves the store as it is.
-/

namespace StaticInit.Script

inductive Answer where
  | rejected
  | done (result : Result) (state : View)
deriving DecidableEq

/-- A line of a script: a step, or something that cannot be read as one. -/
abbrev Line := Option Step

/-- The answer to a step and the store after it. -/
def Store.step (store : Store) (step : Step) : Answer × Store :=
  match step.effect? store.get? with
  | none => (.rejected, store)
  | some effect =>
    let store' := store.insertAll effect.changes
    match store'.get? step.id with
    | some o => (.done effect.result o.view, store')
    | none => (.rejected, store)

def Store.line (store : Store) : Line → Answer × Store
  | some step => store.step step
  | none => (.rejected, store)

/-- The answers to all lines and the store at the end. -/
def Store.run (store : Store) : List Line → List Answer × Store
  | [] => ([], store)
  | line :: lines =>
    let (answer, store') := store.line line
    let (answers, last) := store'.run lines
    (answer :: answers, last)

/-- The answers of a script that starts without objects. -/
def answers (lines : List Line) : List Answer := (Store.empty.run lines).1

end StaticInit.Script
