import StaticInit.Script.Run

/-!
# What a step reads and writes

A step looks at the objects of the names it mentions and at no others
(`Step.effect?_congr`). What it does with them has one of three shapes
(`Step.shape_of_effect?`): nothing is written, or the object of the step alone,
or, by the overriding `incr`, that and a static state. Hence a step writes only
to names it mentions (`Effect.Shape.mem_names`), a step with a fault for its
result writes nothing (`Effect.Shape.changes_of_failed`), and every step that
fits its objects is answered (`Store.step_of_effect?`).
-/

namespace StaticInit.Script

/-- Whether the result is a fault. -/
def Result.failed : Result → Bool
  | .fault _ => true
  | _ => false

/-- The forms of an effect of a step. Only one that writes nothing may be a fault. -/
inductive Effect.Shape (look : String → Option Object) (step : Step) : Effect → Prop
  | reads (r : Result) {o : Object} (h : look step.id = some o) : Shape look step ⟨r, []⟩
  | writes {r : Result} (o : Object) (h : r.failed = false) : Shape look step ⟨r, [(step.id, o)]⟩
  | incr {name : String} {d : Derived} {s : Statics} (h : step.action = .incr (some name))
    (hd : look step.id = some (.derived d)) (hs : look name = some (.statics s)) :
    Shape look step (.ofIncr step.id name d s)

variable {look look' : String → Option Object} {step : Step} {effect : Effect}

/-! ## Reading -/

theorem Step.effect?_congr (h : ∀ name ∈ step.names, look name = look' name) :
    step.effect? look = step.effect? look' := by
  obtain ⟨id, action⟩ := step
  have hid : look id = look' id := h id List.mem_cons_self
  cases action with
  | new shape => rfl
  | view => simp only [effect?, hid]
  | operate op => simp only [effect?, hid]
  | clone source =>
    have hsource : look source = look' source := h source (by simp [names])
    simp only [effect?, hsource]
  | eq other =>
    have hother : look other = look' other := h other (by simp [names])
    simp only [effect?, hid, hother]
  | storeRow index row =>
    have hrow : look row = look' row := h row (by simp [names])
    simp only [effect?, hid, hrow]
  | incr statics? =>
    cases statics? with
    | none => simp only [effect?, hid]
    | some name =>
      have hname : look name = look' name := h name (by simp [names])
      simp only [effect?, hid, hname]

/-! ## Writing -/

theorem map_eq_ok_iff {α β : Type} {x : Except Fault α} {f : α → β} {b : β} :
    x.map f = .ok b ↔ ∃ a, x = .ok a ∧ f a = b := by
  cases x <;> simp [Except.map]

/-- What an operation that succeeds gives back is no fault. -/
theorem Object.result_operate {o o' : Object} {op : Operation}
    {outcome : Except Fault (Result × Object)} (h : o.operate op = some outcome) {r : Result}
    (hr : outcome = .ok (r, o')) : r.failed = false := by
  unfold operate at h
  split at h <;> cases h <;> grind [map_eq_ok_iff, Result.failed]

theorem Effect.shape_ofOutcome {o : Object} (ho : look step.id = some o)
    {outcome : Except Fault (Result × Object)}
    (h : ∀ r o', outcome = .ok (r, o') → r.failed = false) :
    (ofOutcome step.id outcome).Shape look step := by
  cases outcome with
  | error fault => exact .reads _ ho
  | ok done => exact .writes done.2 (h done.1 done.2 rfl)

/-- All that a step can do. -/
theorem Step.shape_of_effect? (h : step.effect? look = some effect) :
    effect.Shape look step := by
  obtain ⟨id, action⟩ := step
  cases action with
  | new shape =>
    obtain ⟨o, -, rfl⟩ := Option.map_eq_some_iff.mp h
    exact .writes o rfl
  | view =>
    obtain ⟨o, ho, rfl⟩ := Option.map_eq_some_iff.mp h
    exact .reads _ ho
  | clone source =>
    simp only [effect?] at h
    split at h
    · split at h <;> cases h
      exact .writes _ rfl
    · cases h
  | eq other =>
    simp only [effect?] at h
    split at h
    · next a b ha hb =>
      obtain ⟨same, -, rfl⟩ := Option.map_eq_some_iff.mp h
      exact .reads _ ha
    · cases h
  | operate op =>
    simp only [effect?] at h
    split at h
    · next o ho =>
      obtain ⟨outcome, hop, rfl⟩ := Option.map_eq_some_iff.mp h
      exact Effect.shape_ofOutcome ho fun r o' hr => Object.result_operate hop hr
    · cases h
  | storeRow index row =>
    simp only [effect?] at h
    split at h <;> cases h
    next a r ha hr =>
      refine Effect.shape_ofOutcome ha fun result o' hok => ?_
      obtain ⟨stored, -, hstored⟩ := map_eq_ok_iff.mp hok
      cases hstored
      rfl
  | incr statics? =>
    simp only [effect?] at h
    split at h
    -- a base instance needs no static state
    · cases h
      exact .writes _ rfl
    · next d hd =>
      split at h
      · cases h
      · split at h
        · next s hs =>
          cases h
          exact .incr rfl hd hs
        · cases h
    · cases h

namespace Effect.Shape

/-- A step writes to names it mentions. -/
theorem mem_names (h : effect.Shape look step) {change : String × Object}
    (hc : change ∈ effect.changes) : change.1 ∈ step.names := by
  cases h with
  | reads r ho => cases hc
  | writes o hr =>
    obtain rfl := List.mem_singleton.mp hc
    exact List.mem_cons_self
  | @incr name d s haction =>
    have hnames : step.names = [step.id, name] := by simp [Step.names, haction]
    simp only [ofIncr, List.mem_cons, List.not_mem_nil, or_false] at hc
    rcases hc with rfl | rfl <;> simp [hnames]

/-- A fault leaves everything in place. -/
theorem changes_of_failed (h : effect.Shape look step) (hf : effect.result.failed = true) :
    effect.changes = [] := by
  cases h with
  | reads r ho => rfl
  | writes o hr => exact absurd hf (by simp [hr])
  | incr => cases hf

end Effect.Shape

/-! ## The store -/

namespace Store

theorem step_of_misfit {store : Store} (h : step.effect? store.get? = none) :
    store.step step = (.rejected, store) := by
  simp only [Store.step, h]

/-- A step that fits its objects is answered with its result. -/
theorem step_of_effect? {store : Store} (h : step.effect? store.get? = some effect) :
    ∃ o, (store.insertAll effect.changes).get? step.id = some o ∧
      store.step step = (.done effect.result o.view, store.insertAll effect.changes) := by
  suffices hget : ∃ o, (store.insertAll effect.changes).get? step.id = some o by
    obtain ⟨o, ho⟩ := hget
    exact ⟨o, ho, by simp only [Store.step, h, ho]⟩
  cases Step.shape_of_effect? h with
  | reads r ho => exact ⟨_, ho⟩
  | writes o hr => exact ⟨o, by simp [get?_insert]⟩
  | incr =>
    simp only [Effect.ofIncr, insertAll_cons, insertAll_nil, get?_insert, if_true]
    split <;> exact ⟨_, rfl⟩

theorem run_cons (store : Store) (line : Line) (lines : List Line) :
    store.run (line :: lines) =
      ((store.line line).1 :: ((store.line line).2.run lines).1,
        ((store.line line).2.run lines).2) := rfl

end Store

end StaticInit.Script
