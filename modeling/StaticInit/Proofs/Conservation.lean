import Mathlib.Algebra.BigOperators.ModEq
import StaticInit.Instance

/-!
# No increment is lost

Any number of static states, and any number of instances that act on them in any
interleaving. An `incr` of a chaining instance moves the counter of one static
state and the accumulator of the instance by one, and nothing else moves either
of the two, but for the first seed of a counter and `decr`. So the counters
together have moved as far as the accumulators together (`Ensemble.increments_conserved`).

Both sides count the same increments: `Ensemble.increments` tells how often an
instance has moved a static state, `counter_run` sums it over the instances, and
`accumulator_run` over the static states.
-/

namespace StaticInit

/-- A derived instance, by itself or in a box, where `decr` is all it offers. -/
inductive Holder where
  | bare (d : Derived)
  | boxed (h : Handle)

namespace Holder

def accumulator : Holder → Int32
  | .bare d => d.accumulator
  | .boxed h => h.accumulator

/-- Whether `incr` moves the accumulator and a counter. -/
def chains : Holder → Bool
  | .bare d => d.mode = .chainThrough
  | .boxed _ => false

def incr (x : Holder) (s : Statics) : Holder × Statics :=
  match x with
  | .bare d => (.bare (d.incr s).1, (d.incr s).2)
  | .boxed h => (.boxed h, s)

def decr : Holder → Holder
  | .bare d => .bare d.decr.2
  | .boxed h => .boxed h.decr.2

def box : Holder → Holder
  | .bare d => .boxed (.derived d)
  | .boxed h => .boxed h

@[simp] theorem accumulator_decr (x : Holder) : x.decr.accumulator = x.accumulator - 1 := by
  cases x <;> simp [decr, accumulator]

@[simp] theorem accumulator_box (x : Holder) : x.box.accumulator = x.accumulator := by
  cases x <;> rfl

theorem accumulator_incr (x : Holder) (s : Statics) :
    (x.incr s).1.accumulator = if x.chains then x.accumulator + 1 else x.accumulator := by
  cases x with
  | bare d =>
    cases hm : d.mode <;>
      simp [incr, Derived.incr, chains, accumulator, Derived.accumulator, hm]
  | boxed h => rfl

theorem counter_incr (x : Holder) (s : Statics) :
    (x.incr s).2.counter = if x.chains then s.counter + 1 else s.counter := by
  cases x with
  | bare d => cases hm : d.mode <;> simp [incr, Derived.incr, chains, hm]
  | boxed h => rfl

@[simp] theorem seeded_incr (x : Holder) (s : Statics) : (x.incr s).2.seeded = s.seeded := by
  cases x with
  | bare d => cases hm : d.mode <;> simp [incr, Derived.incr, hm]
  | boxed h => rfl

@[simp] theorem chains_incr (x : Holder) (s : Statics) : (x.incr s).1.chains = x.chains := by
  cases x with
  | bare d => simp [incr, chains]
  | boxed h => rfl

@[simp] theorem chains_decr (x : Holder) : x.decr.chains = x.chains := by
  cases x <;> rfl

@[simp] theorem chains_box (x : Holder) : x.box.chains = false := by
  cases x <;> rfl

end Holder

/-- Static states and instances, each family under names of its own. -/
structure Ensemble (ι κ β : Type) where
  statics : ι → Statics
  derived : κ → Holder
  bases : β → Base

namespace Ensemble

/-- An operation on one member of an ensemble, or `incr` of an instance on a static state. -/
inductive Act (ι κ β : Type) where
  | incr (k : κ) (i : ι)
  | decr (k : κ)
  | box (k : κ)
  | baseIncr (b : β)
  | baseDecr (b : β)
  | seedCounter (i : ι) (seed : Int32)
  | fixSum (i : ι)
  | readSum (i : ι)
deriving DecidableEq

/-! ## Seeds -/

section Seeds

variable {ι κ β : Type} [DecidableEq ι]

/-- The seed that is asked for of the given static state. -/
def Act.seed? (i : ι) : Act ι κ β → Option Int32
  | .seedCounter j seed => if j = i then some seed else none
  | _ => none

def firstSeed? (i : ι) (h : List (Act ι κ β)) : Option Int32 := h.findSome? (Act.seed? i)

/-- No `incr` on the static state comes before its first seed, if it is seeded at all. -/
def SeededFirst (i : ι) (h : List (Act ι κ β)) : Prop :=
  (firstSeed? i h).isSome → ∀ k, .incr k i ∉ h.takeWhile fun a => (a.seed? i).isNone

instance [Fintype κ] [DecidableEq κ] [DecidableEq β] (i : ι) (h : List (Act ι κ β)) :
    Decidable (SeededFirst i h) :=
  inferInstanceAs (Decidable (_ → ∀ _, _))

variable {a : Act ι κ β} {h : List (Act ι κ β)} {i : ι} {seed : Int32}

theorem firstSeed?_cons_none (ha : a.seed? i = none) :
    firstSeed? i (a :: h) = firstSeed? i h := by
  rw [firstSeed?, List.findSome?_cons, ha, firstSeed?]

theorem firstSeed?_cons_some (ha : a.seed? i = some seed) :
    firstSeed? i (a :: h) = some seed := by
  rw [firstSeed?, List.findSome?_cons, ha]

theorem SeededFirst.tail (hs : SeededFirst i (a :: h)) (ha : a.seed? i = none) :
    SeededFirst i h := by
  intro hseed k hk
  refine hs (by rwa [firstSeed?_cons_none ha]) k ?_
  rw [List.takeWhile_cons_of_pos (by simp [ha])]
  exact List.mem_cons_of_mem a hk

/-- Ahead of a first seed there is no `incr`. -/
theorem SeededFirst.ne_incr (hs : SeededFirst i (a :: h)) (ha : a.seed? i = none)
    (hseed : firstSeed? i h = some seed) (k : κ) : a ≠ .incr k i := by
  intro hincr
  refine hs (by rw [firstSeed?_cons_none ha, hseed]; rfl) k ?_
  rw [List.takeWhile_cons_of_pos (by simp [ha]), hincr]
  exact List.mem_cons_self

theorem SeededFirst.of_append {before after : List (Act ι κ β)}
    (hs : SeededFirst i (before ++ after)) : SeededFirst i before := by
  intro hseed k hk
  refine hs ?_ k ?_
  · rw [firstSeed?, List.findSome?_append, Option.isSome_or, ← firstSeed?, hseed, Bool.true_or]
  · rw [List.takeWhile_append]
    split
    · exact List.mem_append_left _ ((List.takeWhile_prefix _).subset hk)
    · exact hk

end Seeds

variable {ι κ β : Type} [DecidableEq ι] [DecidableEq κ] [DecidableEq β]

open Function (update)

def act (w : Ensemble ι κ β) : Act ι κ β → Ensemble ι κ β
  | .incr k i =>
    { w with
      derived := update w.derived k ((w.derived k).incr (w.statics i)).1
      statics := update w.statics i ((w.derived k).incr (w.statics i)).2 }
  | .decr k => { w with derived := update w.derived k (w.derived k).decr }
  | .box k => { w with derived := update w.derived k (w.derived k).box }
  | .baseIncr b => { w with bases := update w.bases b (w.bases b).incr }
  | .baseDecr b => { w with bases := update w.bases b (w.bases b).decr.2 }
  | .seedCounter i seed =>
    { w with statics := update w.statics i ((w.statics i).seedCounter seed).2 }
  | .fixSum i => { w with statics := update w.statics i (w.statics i).fixSum.2 }
  | .readSum _ => w

def run (w : Ensemble ι κ β) (h : List (Act ι κ β)) : Ensemble ι κ β := h.foldl act w

/-- All members as they are created. -/
def start (modes : κ → Override) : Ensemble ι κ β where
  statics _ := .fresh
  derived k := .bare { mode := modes k }
  bases _ := {}

/-- How far the counter has moved from its first seed, or from 0 if there is none. -/
def drift (modes : κ → Override) (h : List (Act ι κ β)) (i : ι) : ℤ :=
  (((start modes).run h).statics i).counter.toInt - ((firstSeed? i h).getD 0).toInt

/-- How far the accumulator would have moved without `decr`. -/
def effort (modes : κ → Override) (h : List (Act ι κ β)) (k : κ) : ℤ :=
  (((start modes).run h).derived k).accumulator.toInt + h.count (.decr k)

/-! ## One act -/

/-- What an act adds to the moves of a static state by an instance. -/
def moved (w : Ensemble ι κ β) (a : Act ι κ β) (k : κ) (i : ι) : ℤ :=
  if a = .incr k i ∧ (w.derived k).chains then 1 else 0

theorem toInt_add_one (n : Int32) : (n + 1).toInt ≡ n.toInt + 1 [ZMOD 2 ^ 32] := by
  rw [Int32.toInt_add, Int32.toInt_one]
  exact Int.bmod_emod

theorem toInt_sub_one (n : Int32) : (n - 1).toInt + 1 ≡ n.toInt [ZMOD 2 ^ 32] := by
  have h : (n - 1).toInt ≡ n.toInt - 1 [ZMOD 2 ^ 32] := by
    rw [Int32.toInt_sub, Int32.toInt_one]
    exact Int.bmod_emod
  simpa using h.add_right 1

theorem counter_act [Fintype κ] (w : Ensemble ι κ β) {a : Act ι κ β} {i : ι}
    (ha : a.seed? i = none) :
    ((w.act a).statics i).counter.toInt ≡
      (w.statics i).counter.toInt + ∑ k, w.moved a k i [ZMOD 2 ^ 32] := by
  cases a with
  | incr k j =>
    by_cases hj : j = i
    · subst hj
      have hsum : ∑ l, w.moved (.incr k j) l j = if (w.derived k).chains then 1 else 0 := by
        simp [moved, ite_and]
      rw [hsum]
      simp only [act, Function.update_self, Holder.counter_incr]
      split
      · exact toInt_add_one _
      · rw [Int.add_zero]
    · simp [act, moved, hj, Ne.symm hj]
  | seedCounter j seed =>
    have hj : j ≠ i := by simpa [Act.seed?] using ha
    simp [act, moved, Ne.symm hj]
  | fixSum j => by_cases hj : i = j <;> simp [act, moved, hj]
  | _ => simp [act, moved]

theorem seeded_act (w : Ensemble ι κ β) {a : Act ι κ β} {i : ι} (ha : a.seed? i = none) :
    ((w.act a).statics i).seeded = (w.statics i).seeded := by
  cases a with
  | incr k j => by_cases hj : i = j <;> simp [act, hj]
  | seedCounter j seed =>
    have hj : j ≠ i := by simpa [Act.seed?] using ha
    simp [act, Ne.symm hj]
  | fixSum j => by_cases hj : i = j <;> simp [act, hj]
  | _ => rfl

theorem statics_act_seed (w : Ensemble ι κ β) {a : Act ι κ β} {i : ι} {seed : Int32}
    (ha : a.seed? i = some seed) : (w.act a).statics i = ((w.statics i).seedCounter seed).2 := by
  cases a with
  | seedCounter j seed' =>
    have hj : j = i ∧ seed' = seed := by simpa [Act.seed?] using ha
    obtain ⟨rfl, rfl⟩ := hj
    simp [act]
  | _ => cases ha

theorem moved_seed (w : Ensemble ι κ β) {a : Act ι κ β} {i : ι} {seed : Int32}
    (ha : a.seed? i = some seed) (k : κ) : w.moved a k i = 0 := by
  refine if_neg fun h => ?_
  rw [h.1] at ha
  cases ha

theorem accumulator_act [Fintype ι] (w : Ensemble ι κ β) (a : Act ι κ β) (k : κ) :
    ((w.act a).derived k).accumulator.toInt + (if a = .decr k then 1 else 0) ≡
      (w.derived k).accumulator.toInt + ∑ i, w.moved a k i [ZMOD 2 ^ 32] := by
  cases a with
  | incr l i =>
    by_cases hl : l = k
    · subst hl
      have hsum : ∑ j, w.moved (.incr l i) l j = if (w.derived l).chains then 1 else 0 := by
        simp [moved, ite_and]
      rw [hsum]
      simp only [act, Function.update_self, Holder.accumulator_incr, reduceCtorEq, if_false,
        Int.add_zero]
      split
      · exact toInt_add_one _
      · rw [Int.add_zero]
    · simp [act, moved, hl, Ne.symm hl]
  | decr l =>
    by_cases hl : l = k
    · subst hl
      simpa [act, moved] using toInt_sub_one _
    · simp [act, moved, hl, Ne.symm hl]
  | box l => by_cases hl : k = l <;> simp [act, moved, hl]
  | _ => simp [act, moved]

/-- An instance that does not chain never will. -/
theorem chains_act (w : Ensemble ι κ β) (a : Act ι κ β) {k : κ}
    (hk : (w.derived k).chains = false) : ((w.act a).derived k).chains = false := by
  cases a with
  | incr l i =>
    by_cases hl : k = l
    · subst hl; simpa [act] using hk
    · simpa [act, hl] using hk
  | decr l =>
    by_cases hl : k = l
    · subst hl; simpa [act] using hk
    · simpa [act, hl] using hk
  | box l => by_cases hl : k = l <;> simp [act, hl, hk]
  | _ => exact hk

/-! ## Many acts -/

/-- How often the instance moves the static state. -/
def increments (w : Ensemble ι κ β) : List (Act ι κ β) → κ → ι → ℤ
  | [], _, _ => 0
  | a :: h, k, i => w.moved a k i + (w.act a).increments h k i

theorem increments_of_not_chains {k : κ} (i : ι) (h : List (Act ι κ β)) {w : Ensemble ι κ β}
    (hk : (w.derived k).chains = false) : w.increments h k i = 0 := by
  induction h generalizing w with
  | nil => rfl
  | cons a h ih => simp [increments, moved, hk, ih (chains_act w a hk)]

theorem accumulator_run [Fintype ι] (h : List (Act ι κ β)) (k : κ) (w : Ensemble ι κ β) :
    ((w.run h).derived k).accumulator.toInt + h.count (.decr k) ≡
      (w.derived k).accumulator.toInt + ∑ i, w.increments h k i [ZMOD 2 ^ 32] := by
  induction h generalizing w with
  | nil => simp [run, increments]
  | cons a h ih =>
    have hcount : ((a :: h).count (.decr k) : ℤ) =
        h.count (.decr k) + if a = .decr k then 1 else 0 := by
      rw [List.count_cons]
      simp
    calc ((w.run (a :: h)).derived k).accumulator.toInt + (a :: h).count (.decr k)
        = (((w.act a).run h).derived k).accumulator.toInt + h.count (.decr k) +
          (if a = .decr k then 1 else 0) := by rw [hcount, Int.add_assoc]; rfl
      _ ≡ ((w.act a).derived k).accumulator.toInt + ∑ i, (w.act a).increments h k i +
          (if a = .decr k then 1 else 0) [ZMOD 2 ^ 32] := (ih (w.act a)).add_right _
      _ = ((w.act a).derived k).accumulator.toInt + (if a = .decr k then 1 else 0) +
          ∑ i, (w.act a).increments h k i := add_right_comm _ _ _
      _ ≡ (w.derived k).accumulator.toInt + ∑ i, w.moved a k i +
          ∑ i, (w.act a).increments h k i [ZMOD 2 ^ 32] := (accumulator_act w a k).add_right _
      _ = (w.derived k).accumulator.toInt + ∑ i, w.increments (a :: h) k i := by
          rw [Int.add_assoc, ← Finset.sum_add_distrib]; rfl

/-- Where the counter moves from. -/
def origin (w : Ensemble ι κ β) (h : List (Act ι κ β)) (i : ι) : Int32 :=
  if (w.statics i).seeded then (w.statics i).counter
  else (firstSeed? i h).getD (w.statics i).counter

theorem origin_act_seed (w : Ensemble ι κ β) {a : Act ι κ β} {i : ι} {seed : Int32}
    (ha : a.seed? i = some seed) (h : List (Act ι κ β)) :
    (w.act a).origin h i = w.origin (a :: h) i := by
  simp only [origin, statics_act_seed w ha, Statics.seedCounter, firstSeed?_cons_some ha]
  cases hseeded : (w.statics i).seeded <;> simp [hseeded]

/-- An act that is no seed takes the origin along where it moves the counter. -/
theorem origin_act [Fintype κ] {w : Ensemble ι κ β} {a : Act ι κ β} {i : ι}
    {h : List (Act ι κ β)} (ha : a.seed? i = none)
    (hs : (w.statics i).seeded = true ∨ SeededFirst i (a :: h)) :
    ((w.act a).origin h i).toInt ≡
      (w.origin (a :: h) i).toInt + ∑ k, w.moved a k i [ZMOD 2 ^ 32] := by
  simp only [origin, seeded_act w ha, firstSeed?_cons_none ha]
  cases hseeded : (w.statics i).seeded with
  | true => exact counter_act w ha
  | false =>
    cases hseed : firstSeed? i h with
    | none => exact counter_act w ha
    | some seed =>
      have hfirst : SeededFirst i (a :: h) := hs.resolve_left (by simp [hseeded])
      have hmoved : ∑ k, w.moved a k i = 0 := Finset.sum_eq_zero fun k _ =>
        if_neg fun hincr => hfirst.ne_incr ha hseed k hincr.1
      rw [hmoved, Int.add_zero]
      rfl

theorem counter_run [Fintype κ] (h : List (Act ι κ β)) {i : ι} {w : Ensemble ι κ β}
    (hs : (w.statics i).seeded = true ∨ SeededFirst i h) :
    ((w.run h).statics i).counter.toInt ≡
      (w.origin h i).toInt + ∑ k, w.increments h k i [ZMOD 2 ^ 32] := by
  induction h generalizing w with
  | nil => simp [run, increments, origin, firstSeed?]
  | cons a h ih =>
    have hsum : ∑ k, w.increments (a :: h) k i =
        ∑ k, w.moved a k i + ∑ k, (w.act a).increments h k i := Finset.sum_add_distrib
    rw [hsum, ← Int.add_assoc]
    cases ha : a.seed? i with
    | some seed =>
      have hseeded : ((w.act a).statics i).seeded = true := by
        rw [statics_act_seed w ha, Statics.seeded_seedCounter]
      rw [Finset.sum_eq_zero fun k _ => moved_seed w ha k, Int.add_zero, ← origin_act_seed w ha]
      exact ih (.inl hseeded)
    | none =>
      have hs' : ((w.act a).statics i).seeded = true ∨ SeededFirst i h := by
        rw [seeded_act w ha]
        exact hs.imp_right (·.tail ha)
      exact (ih hs').trans ((origin_act ha hs).add_right _)

theorem drift_modEq [Fintype κ] (modes : κ → Override) {h : List (Act ι κ β)} {i : ι}
    (hs : SeededFirst i h) :
    drift modes h i ≡ ∑ k, (start modes).increments h k i [ZMOD 2 ^ 32] := by
  have horigin : ((start modes : Ensemble ι κ β).origin h i) = (firstSeed? i h).getD 0 := rfl
  have hcounter := (counter_run h (w := start modes) (.inr hs)).sub_right
    ((firstSeed? i h).getD 0).toInt
  rwa [horigin, add_sub_cancel_left] at hcounter

theorem effort_modEq [Fintype ι] (modes : κ → Override) (h : List (Act ι κ β)) (k : κ) :
    effort modes h k ≡ ∑ i, (start modes).increments h k i [ZMOD 2 ^ 32] := by
  have hzero : ((start modes : Ensemble ι κ β).derived k).accumulator.toInt = 0 := rfl
  have haccumulator := accumulator_run h k (start modes)
  rwa [hzero, Int.zero_add] at haccumulator

/-- After every act, the counters have moved in all, from their first seeds, as far
as the accumulators have but for `decr`. An instance that does not chain through
adds nothing, and neither `decr` nor a base instance moves a static state. -/
theorem increments_conserved [Fintype ι] [Fintype κ] (modes : κ → Override)
    {h : List (Act ι κ β)} (hs : ∀ i, SeededFirst i h) {before : List (Act ι κ β)}
    (hbefore : before <+: h) :
    ∑ i, drift modes before i ≡ ∑ k, effort modes before k [ZMOD 2 ^ 32] ∧
      (∀ k, modes k = .noOp → effort modes before k ≡ 0 [ZMOD 2 ^ 32]) ∧
      ∀ w : Ensemble ι κ β, (∀ k, (w.act (.decr k)).statics = w.statics) ∧
        ∀ b, (w.act (.baseIncr b)).statics = w.statics ∧
          (w.act (.baseDecr b)).statics = w.statics := by
  obtain ⟨after, rfl⟩ := hbefore
  refine ⟨?_, fun k hk => ?_, fun w => ⟨fun _ => rfl, fun _ => ⟨rfl, rfl⟩⟩⟩
  · calc ∑ i, drift modes before i
        ≡ ∑ i, ∑ k, (start modes).increments before k i [ZMOD 2 ^ 32] :=
          Int.ModEq.sum fun i _ => drift_modEq modes (hs i).of_append
      _ = ∑ k, ∑ i, (start modes).increments before k i := Finset.sum_comm
      _ ≡ ∑ k, effort modes before k [ZMOD 2 ^ 32] :=
          (Int.ModEq.sum fun k _ => effort_modEq modes before k).symm
  · have hchains : ((start modes : Ensemble ι κ β).derived k).chains = false := by
      simp [start, Holder.chains, hk]
    have hnone : ∑ i, (start modes).increments before k i = 0 :=
      Finset.sum_eq_zero fun i _ => increments_of_not_chains i before hchains
    rw [← hnone]
    exact effort_modEq modes before k

/-- The first of two counters wraps; the first of two instances chains through and
is boxed in the end, the other does nothing. -/
def crossing : List (Act (Fin 2) (Fin 2) (Fin 1)) :=
  [.seedCounter 0 2147483647, .incr 0 0, .incr 0 1, .incr 1 0, .decr 0, .box 0, .seedCounter 0 5,
    .decr 0, .decr 0, .fixSum 1, .baseIncr 0]

def crossingModes (k : Fin 2) : Override := if k = 0 then .chainThrough else .noOp

theorem increments_conserved_crossing :
    (∀ i, SeededFirst i crossing) ∧
      ∑ i, drift crossingModes crossing i = -4294967294 ∧
      ∑ k, effort crossingModes crossing k = 2 ∧
      ∑ i, drift crossingModes crossing i ≡ ∑ k, effort crossingModes crossing k [ZMOD 2 ^ 32] := by
  have hs : ∀ i, SeededFirst i crossing := by decide
  exact ⟨hs, by decide, by decide, (increments_conserved crossingModes hs List.prefix_rfl).1⟩

end Ensemble

end StaticInit
