import StaticInit.Stage

/-!
# The static phase in closed form

What the static phase makes of a state whose counter is not seeded yet, for any
number of warmups. The loop of the warmups is `Derived.repeatIncr_eq`: the
counter after `n` of them, and the one seen after each. `staticPhase_statics` and
`staticPhase_phases` put the stages together: the counter and the derived sum
that stay in place (`Config.settled`), and the phases that the report gets
(`Config.openingPhases`). A sum that was fixed before the phase is kept by it, so
both are stated for a state with or without one.
-/

namespace StaticInit

/-! ## Warmups -/

/-- How far `n` calls of the subclass `incr` move the counter. -/
def Override.moved (mode : Override) (n : Nat) : Int32 :=
  match mode with
  | .noOp => 0
  | .chainThrough => Int32.ofNat n

namespace Override

@[simp] theorem moved_zero (mode : Override) : mode.moved 0 = 0 := by cases mode <;> rfl

theorem moved_succ (mode : Override) (n : Nat) :
    mode.moved (n + 1) = mode.moved 1 + mode.moved n := by
  cases mode with
  | noOp => rfl
  | chainThrough =>
    show Int32.ofNat (n + 1) = Int32.ofNat 1 + Int32.ofNat n
    rw [Nat.add_comm, Int32.ofNat_add]

end Override

namespace Derived

theorem statics_incr (d : Derived) (s : Statics) :
    (d.incr s).2 = { s with counter := s.counter + d.mode.moved 1 } := by
  cases hm : d.mode <;> simp [incr, hm, Override.moved, Statics.bump]

/-- The warmups: each moves the counter on from where the one before left it. -/
theorem repeatIncr_eq (n : Nat) (d : Derived) (s : Statics) (seen : Array Int32) :
    repeatIncr n d s seen =
      ({ s with counter := s.counter + d.mode.moved n },
        seen ++ ((List.range n).map fun i => s.counter + d.mode.moved (i + 1)).toArray) := by
  induction n generalizing d s seen with
  | zero => simp [repeatIncr]
  | succ n ih =>
    have hstep : ∀ m, s.counter + d.mode.moved 1 + d.mode.moved m =
        s.counter + d.mode.moved (m + 1) := fun m => by
      rw [Override.moved_succ _ m, Int32.add_assoc]
    rw [repeatIncr, ih, mode_incr, statics_incr]
    simp [hstep, List.range_succ_eq_map, Function.comp_def]

end Derived

/-! ## Configurations -/

namespace Config

/-- The counter from the static phase on. -/
def finalCounter (c : Config) : Int32 :=
  match c.order, c.mode with
  | .counterFirst, .chainThrough => c.seed + Int32.ofNat c.warmups.toNat
  | _, _ => c.seed

/-- The derived sum that the static phase computes. -/
def derivedSum (c : Config) : Int32 :=
  match c.order with
  | .counterFirst => c.finalCounter + 10
  | .sumFirst => 10

/-- What the counter reads when the derived sum is due. -/
def summedCounter (c : Config) : Int32 :=
  match c.order with
  | .counterFirst => c.finalCounter
  | .sumFirst => 0

/-- The static state from the static phase on, with the given derived sum. -/
def settled (c : Config) (sum : Int32) : Statics where
  counter := c.finalCounter
  seeded := true
  sum? := some sum

/-- The phases of the static phase, with the given derived sum. -/
def openingPhases (c : Config) (sum : Int32) : List Phase :=
  match c.order with
  | .counterFirst =>
    .counterInitialized c.seed ::
      (List.range c.warmups.toNat).map
        (fun i => .warmupIncrement (c.seed + c.mode.moved (i + 1))) ++
      [.sumDerived c.finalCounter sum]
  | .sumFirst =>
    [.sumDerived 0 sum, .counterInitialized c.seed] ++
      if 0 < c.warmups then [.warmupSkipped c.warmups] else []

theorem finalCounter_counterFirst {c : Config} (h : c.order = .counterFirst) :
    c.finalCounter = c.seed + c.mode.moved c.warmups.toNat := by
  cases hm : c.mode <;> simp [finalCounter, h, hm, Override.moved]

theorem finalCounter_sumFirst {c : Config} (h : c.order = .sumFirst) : c.finalCounter = c.seed := by
  simp [finalCounter, h]

theorem derivedSum_eq_sumFrom (c : Config) : c.derivedSum = Series.sumFrom c.summedCounter := by
  cases ho : c.order <;> simp [derivedSum, summedCounter, ho, Series.sumFrom_eq_add]

/-- The static phase tells of one sum, and of the counter it was due at. -/
theorem sumDerived_mem_openingPhases {c : Config} {sum seed n : Int32} :
    .sumDerived seed n ∈ c.openingPhases sum ↔ seed = c.summedCounter ∧ n = sum := by
  cases ho : c.order with
  | counterFirst => simp [openingPhases, summedCounter, ho]
  | sumFirst =>
    by_cases hw : 0 < c.warmups <;> simp [openingPhases, summedCounter, ho, hw]

end Config

/-! ## Stages -/

namespace Stage

theorem seedCounter_unseeded {s : Statics} (h : s.seeded = false) (seed : Int32) :
    seedCounter seed s = ({ s with counter := seed, seeded := true },
      ⟨[.counterInitialized seed], [.counterSeeded seed]⟩) := by
  simp [seedCounter, Statics.seedCounter, h]

theorem statics_warmUp (mode : Override) (count : UInt32) (s : Statics) :
    (warmUp mode count s).1 = { s with counter := s.counter + mode.moved count.toNat } := by
  unfold warmUp
  split
  · next h => simp [h]
  · simp [Derived.repeatIncr_eq]

theorem phases_warmUp (mode : Override) (count : UInt32) (s : Statics) :
    (warmUp mode count s).2.phases = (List.range count.toNat).map
      fun i => .warmupIncrement (s.counter + mode.moved (i + 1)) := by
  unfold warmUp
  split
  · next h => simp [h]
  · simp [Derived.repeatIncr_eq, Function.comp_def]

theorem statics_skipWarmups (count : UInt32) (s : Statics) : (skipWarmups count s).1 = s := by
  unfold skipWarmups; split <;> rfl

theorem phases_skipWarmups (count : UInt32) (s : Statics) :
    (skipWarmups count s).2.phases = if 0 < count then [.warmupSkipped count] else [] := by
  unfold skipWarmups
  split
  · next h => simp [h]
  · next h => rw [if_pos (UInt32.pos_iff_ne_zero.mpr h)]

end Stage

/-- The derived sum, if it was not fixed before. -/
theorem Statics.fixSum_eq (s : Statics) :
    s.fixSum = (s.sum?.getD (s.counter + 10),
      { s with sum? := some (s.sum?.getD (s.counter + 10)) }) := by
  obtain ⟨counter, seeded, sum?⟩ := s
  cases sum? <;> simp [fixSum, Series.sumFrom_eq_add]

namespace Stage

variable (c : Config) (early : Option Int32)

/-- The static phase seeds the counter and fixes the derived sum. -/
theorem staticPhase_statics :
    (staticPhase c { sum? := early }).1 = c.settled (early.getD c.derivedSum) := by
  cases ho : c.order with
  | counterFirst =>
    simp only [staticPhase, inOrder, ho, andThen, fixSum, seedCounter_unseeded, statics_warmUp,
      Statics.fixSum_eq, Config.settled, Config.derivedSum,
      Config.finalCounter_counterFirst ho]
  | sumFirst =>
    simp only [staticPhase, inOrder, ho, andThen, fixSum, seedCounter_unseeded,
      statics_skipWarmups, Statics.fixSum_eq, Config.settled, Config.derivedSum,
      Config.finalCounter_sumFirst ho, Int32.zero_add]

theorem staticPhase_phases :
    (staticPhase c { sum? := early }).2.phases = c.openingPhases (early.getD c.derivedSum) := by
  cases ho : c.order with
  | counterFirst =>
    simp only [staticPhase, inOrder, ho, andThen, fixSum, seedCounter_unseeded, statics_warmUp,
      phases_warmUp, Trail.phases_append, Statics.fixSum_eq, Config.openingPhases,
      Config.derivedSum, Config.finalCounter_counterFirst ho, List.nil_append,
      List.singleton_append]
  | sumFirst =>
    simp only [staticPhase, inOrder, ho, andThen, fixSum, seedCounter_unseeded,
      phases_skipWarmups, Trail.phases_append, Statics.fixSum_eq, Config.openingPhases,
      Config.derivedSum, Int32.zero_add, List.nil_append, List.singleton_append]

end Stage

end StaticInit
