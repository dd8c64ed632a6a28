import StaticInit.Proofs.Outlines
import StaticInit.Proofs.Separation

/-!
# Dispatch

An instance does the same whether it is held as what it is or behind the `decr`
capability (`Instance.dispatch_transparent`). It keeps its type, its `decr` is always
that of the base type, and its accumulator tells the increments that had an effect less
the decrements (`accumulator_run`). A derived instance goes along with a base instance
that is given just the operations that have an effect on it (`inner_run`), and a handle
with the instance that was boxed (`decrs_box`).
-/

namespace StaticInit

/-- A base instance or a derived one, held as what it is. -/
inductive Instance where
  | base (b : Base)
  | derived (d : Derived)
deriving DecidableEq

/-- `decr` through a handle, `n` times: the types whose code ran, and the handle after it. -/
def Handle.decrs (h : Handle) : Nat → List Kind × Handle
  | 0 => ([], h)
  | n + 1 => (h.decr.1 :: (h.decr.2.decrs n).1, (h.decr.2.decrs n).2)

namespace Instance

/-- What can be done with an instance. `incr` is given a static state, any one each time,
and a base instance leaves it alone. -/
inductive Op where
  | incr (s : Statics)
  | decr
deriving DecidableEq

def Op.isIncr : Op → Bool
  | .incr _ => true
  | .decr => false

def kind : Instance → Kind
  | .base _ => .base
  | .derived _ => .derived

/-- The base part, or the base instance itself. -/
def inner : Instance → Base
  | .base b => b
  | .derived d => d.base

def accumulator (x : Instance) : Int32 := x.inner.accumulator

def box : Instance → Handle
  | .base b => .base b
  | .derived d => .derived d

/-- Whether `incr` has an effect on the accumulator. -/
def chains : Instance → Bool
  | .base _ => true
  | .derived d => d.mode = .chainThrough

/-- Whether the operation has an effect on the accumulator. -/
def heeds (x : Instance) : Op → Bool
  | .incr _ => x.chains
  | .decr => true

/-- The instance after an operation, and the type whose code ran if that was a `decr`. -/
def act : Instance → Op → List Kind × Instance
  | .base b, .incr _ => ([], .base b.incr)
  | .base b, .decr => ([b.decr.1], .base b.decr.2)
  | .derived d, .incr s => ([], .derived (d.incr s).1)
  | .derived d, .decr => ([d.decr.1], .derived d.decr.2)

/-- A plain base instance after an operation. -/
def plain (b : Base) : Op → Base
  | .incr _ => b.incr
  | .decr => b.decr.2

/-- The types whose `decr` ran, in turn, and the instance after the operations. -/
def run (x : Instance) : List Op → List Kind × Instance
  | [] => ([], x)
  | op :: ops => ((x.act op).1 ++ ((x.act op).2.run ops).1, ((x.act op).2.run ops).2)

/-- The increments that have an effect, less the decrements. -/
def net (x : Instance) (ops : List Op) : Int :=
  (if x.chains then ops.countP Op.isIncr else 0 : Nat) - (ops.count .decr : Nat)

/-! ## One operation -/

@[simp] theorem kind_act (x : Instance) (op : Op) : (x.act op).2.kind = x.kind := by
  cases x <;> cases op <;> rfl

@[simp] theorem chains_act (x : Instance) (op : Op) : (x.act op).2.chains = x.chains := by
  cases x with
  | base b => cases op <;> rfl
  | derived d =>
    cases op with
    | incr s => simp only [act, chains, Derived.mode_incr]
    | decr => rfl

/-- The base part has the operations that the instance heeds done with it. -/
theorem inner_act (x : Instance) (op : Op) :
    (x.act op).2.inner =
      if x.heeds op then plain x.inner op else x.inner := by
  cases x with
  | base b => cases op <;> rfl
  | derived d =>
    cases op with
    | decr => rfl
    | incr s => cases hm : d.mode <;> simp [act, plain, inner, heeds, chains, Derived.incr, hm]

theorem resolved_act (x : Instance) (op : Op) :
    (x.act op).1 = List.replicate (if op = .decr then 1 else 0) .base := by
  cases x <;> cases op <;> rfl

theorem decr_box (x : Instance) : x.box.decr = (.base, (x.act .decr).2.box) := by
  cases x <;> rfl

theorem accumulator_incr (x : Instance) (s : Statics) :
    (x.act (.incr s)).2.accumulator = if x.chains then x.accumulator + 1 else x.accumulator := by
  rw [accumulator, inner_act]
  cases hchains : x.chains <;> simp [heeds, hchains, plain, accumulator]

theorem accumulator_decr (x : Instance) : (x.act .decr).2.accumulator = x.accumulator - 1 := by
  cases x <;> rfl

/-! ## Any number of operations -/

@[simp] theorem kind_run (x : Instance) (ops : List Op) : (x.run ops).2.kind = x.kind := by
  induction ops generalizing x with
  | nil => rfl
  | cons op ops ih => exact (ih (x.act op).2).trans (kind_act x op)

theorem run_append (x : Instance) (a b : List Op) :
    x.run (a ++ b) = ((x.run a).1 ++ ((x.run a).2.run b).1, ((x.run a).2.run b).2) := by
  induction a generalizing x with
  | nil => rfl
  | cons op a ih => simp only [List.cons_append, run, ih, List.append_assoc]

/-- Whatever the instance, the code of the base type runs at every `decr`. -/
theorem resolved_run (x : Instance) (ops : List Op) :
    (x.run ops).1 = List.replicate (ops.count .decr) .base := by
  induction ops generalizing x with
  | nil => rfl
  | cons op ops ih =>
    rw [run, resolved_act, ih, List.replicate_append_replicate, List.count_cons, Nat.add_comm]
    simp only [beq_iff_eq]

theorem net_cons_incr (x : Instance) (s : Statics) (ops : List Op) :
    x.net (.incr s :: ops) = x.net ops + if x.chains then 1 else 0 := by
  cases hchains : x.chains <;> simp [net, hchains, List.countP_cons, Op.isIncr]
  omega

theorem net_cons_decr (x : Instance) (ops : List Op) : x.net (.decr :: ops) = x.net ops - 1 := by
  simp [net, Op.isIncr]
  omega

theorem net_act (x : Instance) (op : Op) (ops : List Op) : (x.act op).2.net ops = x.net ops := by
  rw [net, chains_act, net]

/-- The accumulator wraps, as the conversion from integers does. -/
theorem accumulator_run (x : Instance) (ops : List Op) :
    (x.run ops).2.accumulator = x.accumulator + Int32.ofInt (x.net ops) := by
  induction ops generalizing x with
  | nil => simp [run, net]
  | cons op ops ih =>
    rw [run, ih, net_act]
    cases op with
    | incr s =>
      rw [accumulator_incr, net_cons_incr, Int32.ofInt_add]
      cases x.chains with
      | false => simp
      | true =>
        rw [if_pos rfl, if_pos rfl]
        grind
    | decr =>
      rw [accumulator_decr, net_cons_decr, Int32.ofInt_sub]
      grind

/-- The base part of an instance goes along with a plain base instance that is given the
operations that the instance heeds. -/
theorem inner_run (x : Instance) (ops : List Op) :
    (x.run ops).2.inner = (ops.filter x.heeds).foldl plain x.inner := by
  induction ops generalizing x with
  | nil => rfl
  | cons op ops ih =>
    have hheeds : (x.act op).2.heeds = x.heeds := by
      funext op'
      cases op' <;> simp only [heeds, chains_act]
    rw [run, ih, hheeds, inner_act, List.filter_cons]
    split <;> rfl

/-- A handle goes along with the instance that was boxed. -/
theorem decrs_box (x : Instance) (n : Nat) :
    x.box.decrs n = ((x.run (.replicate n .decr)).1, (x.run (.replicate n .decr)).2.box) := by
  induction n generalizing x with
  | zero => rfl
  | succ n ih =>
    rw [List.replicate_succ, run, resolved_act, Handle.decrs, decr_box, ih]
    rfl

theorem kind_box (x : Instance) : x.box.kind = x.kind := by cases x <;> rfl

theorem accumulator_box (x : Instance) : x.box.accumulator = x.accumulator := by cases x <;> rfl

/-- To be boxed at some point makes no difference. -/
theorem decrs_box_run (x : Instance) (ops : List Op) (n : Nat) :
    (x.run ops).2.box.decrs n =
      (.replicate n .base, (x.run (ops ++ .replicate n .decr)).2.box) := by
  rw [decrs_box, resolved_run, List.count_replicate_self, run_append]

theorem net_append_decrs (x : Instance) (ops : List Op) (n : Nat) :
    x.net (ops ++ .replicate n .decr) = x.net ops - n := by
  have hincr : (List.replicate n Op.decr).countP Op.isIncr = 0 := by
    simp [List.countP_replicate, Op.isIncr]
  rw [net, List.countP_append, hincr, Nat.add_zero, List.count_append,
    List.count_replicate_self, net]
  omega

end Instance

/-! ## Many handles -/

namespace Script.Store

/-- `decr` on the object of a name. -/
def decrLine (name : String) : Line := some ⟨name, .operate .decr⟩

theorem answer_decr {store : Store} {name : String} {h : Handle}
    (hname : store.get? name = some (.handle h)) :
    (store.step ⟨name, .operate .decr⟩).1 =
      .done (.kind .base) (.plain h.kind (h.accumulator - 1)) := by
  simp [Store.step, Step.effect?, hname, Object.operate, Effect.ofOutcome, get?_insert,
    Object.view]

/-- A handle takes the decrements on its own name, and no others. -/
theorem get?_run_decrs {store : Store} {name : String} {h : Handle}
    (hname : store.get? name = some (.handle h)) (names : List String) :
    (store.run (names.map decrLine)).2.get? name =
      some (.handle (h.decrs (names.count name)).2) := by
  induction names generalizing store h with
  | nil => exact hname
  | cons m names ih =>
    rw [List.map_cons, run_cons, List.count_cons]
    by_cases hm : m = name
    · subst hm
      have hnext : (store.line (decrLine m)).2.get? m = some (.handle h.decr.2) := by
        rw [decrLine, Store.line, get?_step_operate, hname]
        rfl
      rw [ih hnext]
      simp [Handle.decrs]
    · have hnext : (store.line (decrLine m)).2.get? name = some (.handle h) :=
        (get?_step (by simp [Step.names, Ne.symm hm]) store).trans hname
      rw [ih hnext]
      simp [hm]

theorem get?_run_decrs_of_not_mem {name : String} {names : List String} (hname : name ∉ names)
    (store : Store) : (store.run (names.map decrLine)).2.get? name = store.get? name := by
  induction names generalizing store with
  | nil => rfl
  | cons m names ih =>
    rw [List.mem_cons, not_or] at hname
    rw [List.map_cons, run_cons, ih hname.2]
    exact get?_step (by simp [Step.names, hname.1]) store

end Script.Store

/-- Wherever an instance is boxed, all goes on as if it were not. At every `decr` the code
of the base type runs, while the handle has the type of the instance. Its accumulator has
moved by the increments that had an effect less all decrements, just as that of a plain
base instance that is given these alone. Of any number of handles, a `decr` on one changes
that one and nothing else. -/
theorem Instance.dispatch_transparent (x : Instance) (ops : List Op) (n : Nat) :
    (x.run ops).1 = .replicate (ops.count .decr) .base ∧
      ((x.run ops).2.box.decrs n).1 = .replicate n .base ∧
      ((x.run ops).2.box.decrs n).2.kind = x.kind ∧
      ((x.run ops).2.box.decrs n).2.accumulator = x.accumulator + Int32.ofInt (x.net ops - n) ∧
      ((x.run ops).2.box.decrs n).2.accumulator =
        (x.run (ops ++ .replicate n .decr)).2.accumulator ∧
      ((x.run ops).2.box.decrs n).2.accumulator =
        (((ops ++ .replicate n .decr).filter x.heeds).foldl plain x.inner).accumulator ∧
      ∀ (store : Script.Store) (names : List String) (name : String),
        (∀ h, store.get? name = some (.handle h) →
          (store.step ⟨name, .operate .decr⟩).1 =
              .done (.kind .base) (.plain h.kind (h.accumulator - 1)) ∧
            (store.run (names.map Script.Store.decrLine)).2.get? name =
              some (.handle (h.decrs (names.count name)).2)) ∧
        (name ∉ names →
          (store.run (names.map Script.Store.decrLine)).2.get? name = store.get? name) := by
  rw [decrs_box_run]
  refine ⟨resolved_run x ops, rfl, ?_, ?_, accumulator_box _, ?_, fun store names name =>
    ⟨fun h hname => ⟨Script.Store.answer_decr hname, Script.Store.get?_run_decrs hname names⟩,
      fun hname => Script.Store.get?_run_decrs_of_not_mem hname store⟩⟩
  · rw [kind_box, kind_run]
  · rw [accumulator_box, accumulator_run, net_append_decrs]
  · rw [accumulator_box, accumulator, inner_run]

/-- Two handles of different types, and a static state. -/
def Script.Store.handles : Script.Store :=
  (((Script.Store.empty.insert "s" (.statics .fresh)).insert
    "b" (.handle (.base ⟨0⟩))).insert "d" (.handle (.derived ⟨.chainThrough, ⟨-2147483648⟩⟩)))

/-- A `decr` below the least number, and other handles beside it. -/
theorem Instance.dispatch_transparent_mixed :
    (Script.Store.handles.run (["d", "d", "b"].map Script.Store.decrLine)).2.get? "d" =
        some (.handle (.derived ⟨.chainThrough, ⟨2147483646⟩⟩)) ∧
      (Script.Store.handles.run (["d", "d", "b"].map Script.Store.decrLine)).2.get? "s" =
        some (.statics .fresh) := by
  obtain ⟨-, -, -, -, -, -, hstore⟩ := dispatch_transparent (.base ⟨0⟩) [] 0
  have hd : Script.Store.handles.get? "d" =
      some (.handle (.derived ⟨.chainThrough, ⟨-2147483648⟩⟩)) := by decide
  have hs : "s" ∉ ["d", "d", "b"] := by decide
  exact ⟨((hstore _ _ "d").1 _ hd).2, (hstore _ _ "s").2 hs⟩

end StaticInit
