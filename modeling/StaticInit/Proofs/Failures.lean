import StaticInit.Proofs.Effects

/-!
# Steps that fail

A line of a script fails where its answer is a rejection or a fault
(`Answer.failed`). Whatever the reason, it leaves the store as it found it
(`Store.line_of_failed`). So all lines that fail can be struck out of a script:
the other answers, each with the view it shows, and the objects at the end stay
the same (`Store.run_succeeding`).
-/

namespace StaticInit.Script

def Answer.failed : Answer → Bool
  | .rejected => true
  | .done result _ => result.failed

namespace Store

theorem step_of_failed {store : Store} {step : Step} (h : (store.step step).1.failed = true) :
    (store.step step).2 = store := by
  cases heffect : step.effect? store.get? with
  | none => rw [step_of_misfit heffect]
  | some effect =>
    obtain ⟨o, -, hstep⟩ := step_of_effect? heffect
    rw [hstep] at h ⊢
    have hchanges : effect.changes = [] :=
      (Step.shape_of_effect? heffect).changes_of_failed h
    rw [hchanges, insertAll_nil]

theorem line_of_failed {store : Store} {line : Line} (h : (store.line line).1.failed = true) :
    (store.line line).2 = store := by
  cases line with
  | none => rfl
  | some step => exact step_of_failed h

/-- The lines of a script that do not fail where they stand in it. -/
def succeeding (store : Store) (lines : List Line) : List Line :=
  ((lines.zip (store.run lines).1).filter fun e => !e.2.failed).map Prod.fst

theorem succeeding_cons (store : Store) (line : Line) (lines : List Line) :
    store.succeeding (line :: lines) =
      if (store.line line).1.failed then (store.line line).2.succeeding lines
      else line :: (store.line line).2.succeeding lines := by
  rw [succeeding, run_cons, List.zip_cons_cons, List.filter_cons]
  cases (store.line line).1.failed <;> rfl

/-- A line that fails changes nothing, and a script without the lines that fail in
it gives the other answers and leaves the same store. -/
theorem run_succeeding (store : Store) (lines : List Line) :
    (∀ line, (store.line line).1.failed = true → (store.line line).2 = store) ∧
      store.run (store.succeeding lines) =
        ((store.run lines).1.filter (!·.failed), (store.run lines).2) := by
  refine ⟨fun line h => line_of_failed h, ?_⟩
  induction lines generalizing store with
  | nil => rfl
  | cons line lines ih =>
    rw [succeeding_cons, run_cons store line lines]
    by_cases h : (store.line line).1.failed = true
    · rw [if_pos h, List.filter_cons_of_neg (by simp [h]), line_of_failed h]
      exact ih store
    · rw [if_neg h, List.filter_cons_of_pos (by simp [h]), run_cons, ih]

end Store

end StaticInit.Script
