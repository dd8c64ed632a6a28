import Mathlib.Data.List.Induction
import Mathlib.Data.List.TakeWhile
import StaticInit.Instance

/-!
# Histories of a static state

A static state that starts fresh holds and answers what the operations made on
it so far, its history, say: in any order and number, with `incr` on any derived
instances in between. `run_fresh` gives both in closed form:

* `History.counter`: the first seed and one for every `incr` of a chaining
  instance after it; what moved the counter before that seed is overwritten;
* `History.seeded`: whether there was a seed at all;
* `History.firstSum`: ten above the counter at the first `fixSum`, which stays
  the answer whatever is seeded or moved later; to read it does not fix it.

The step is `act_state`: an operation on the state of a history gives the answer
of that history and leaves the state of the history that is one longer.
-/

namespace StaticInit.Statics

/-- What can be done with a static state. `incr d` is the overriding `incr` of
an instance that stands at `d`; the instances of a history are not related. -/
inductive Op where
  | seedCounter (seed : Int32)
  | fixSum
  | readSum
  | counter
  | seeded
  | incr (d : Derived)
deriving DecidableEq

inductive Answer where
  | flag (b : Bool)
  | number (n : Int32)
  /-- The derived sum, or the fault that there is none. -/
  | sum (read : Except Fault Int32)
  /-- The instance after its `incr`. -/
  | derived (d : Derived)

def act (s : Statics) : Op → Answer × Statics
  | .seedCounter seed => (.flag (s.seedCounter seed).1, (s.seedCounter seed).2)
  | .fixSum => (.number s.fixSum.1, s.fixSum.2)
  | .readSum => (.sum s.readSum, s)
  | .counter => (.number s.counter, s)
  | .seeded => (.flag s.seeded, s)
  | .incr d => (.derived (d.incr s).1, (d.incr s).2)

/-- The answers to operations in turn, and the state after them. -/
def run (s : Statics) : List Op → List Answer × Statics
  | [] => ([], s)
  | op :: ops => ((s.act op).1 :: ((s.act op).2.run ops).1, ((s.act op).2.run ops).2)

theorem run_append (s : Statics) (a b : List Op) :
    s.run (a ++ b) = ((s.run a).1 ++ ((s.run a).2.run b).1, ((s.run a).2.run b).2) := by
  induction a generalizing s with
  | nil => rfl
  | cons op a ih => simp only [List.cons_append, run, ih]

theorem run_concat (s : Statics) (h : List Op) (op : Op) :
    s.run (h ++ [op]) = ((s.run h).1 ++ [((s.run h).2.act op).1], ((s.run h).2.act op).2) :=
  run_append s h [op]

/-! ## Histories -/

/-- Whether the operation moves the counter on by one. -/
def Op.bumps : Op → Bool
  | .incr d => d.mode = .chainThrough
  | _ => false

/-- Whether the operation asks for the counter to be seeded. -/
def Op.seeds : Op → Bool
  | .seedCounter _ => true
  | _ => false

namespace History

def seeded (h : List Op) : Bool := h.any Op.seeds

/-- The counter after a history. -/
def counter (h : List Op) : Int32 :=
  match h.dropWhile (fun op => !op.seeds) with
  | .seedCounter seed :: since => seed + Int32.ofNat (since.countP Op.bumps)
  | _ => Int32.ofNat (h.countP Op.bumps)

/-- The sum that the first `fixSum` fixes, or would fix next. -/
def firstSum (h : List Op) : Int32 := counter (h.takeWhile (· ≠ .fixSum)) + 10

/-- The derived sum after a history: there is one from the first `fixSum` on. -/
def sum? (h : List Op) : Option Int32 := if .fixSum ∈ h then some (firstSum h) else none

def state (h : List Op) : Statics := ⟨counter h, seeded h, sum? h⟩

/-- The answer to an operation that comes after a history. -/
def answer (h : List Op) : Op → Answer
  | .seedCounter _ => .flag (!seeded h)
  | .fixSum => .number (firstSum h)
  | .readSum => .sum (if .fixSum ∈ h then .ok (firstSum h) else .error .sumUnset)
  | .counter => .number (counter h)
  | .seeded => .flag (seeded h)
  | .incr d => .derived (if d.mode = .chainThrough then { d with base := d.base.incr } else d)

/-- Every answer, from what came before it. -/
def answers (h : List Op) : List Answer := h.mapIdx fun i op => answer (h.take i) op

/-! ### One operation more -/

theorem seeded_concat (h : List Op) (op : Op) : seeded (h ++ [op]) = (seeded h || op.seeds) := by
  simp [seeded]

/-- A seeded history splits at its first seed. -/
theorem exists_first_seed {h : List Op} (hs : seeded h = true) :
    ∃ before seed since, h = before ++ .seedCounter seed :: since ∧ seeded before = false := by
  induction h with
  | nil => simp [seeded] at hs
  | cons op h ih =>
    by_cases ho : op.seeds = true
    · cases op <;> simp only [Op.seeds, Bool.false_eq_true] at ho
      exact ⟨[], _, h, rfl, rfl⟩
    · have hr : seeded h = true := by simpa [seeded, ho] using hs
      obtain ⟨before, seed, since, rfl, hb⟩ := ih hr
      exact ⟨op :: before, seed, since, rfl, by simpa [seeded, ho] using hb⟩

theorem counter_unseeded {h : List Op} (hs : seeded h = false) :
    counter h = Int32.ofNat (h.countP Op.bumps) := by
  have hd : h.dropWhile (fun op => !op.seeds) = [] :=
    List.dropWhile_eq_nil_iff.mpr (by simpa [seeded] using hs)
  simp only [counter, hd]

/-- Nothing from before the first seed is left in the counter. -/
theorem counter_first_seed {before : List Op} (hb : seeded before = false) (seed : Int32)
    (since : List Op) :
    counter (before ++ .seedCounter seed :: since) =
      seed + Int32.ofNat (since.countP Op.bumps) := by
  have hd : (before ++ .seedCounter seed :: since).dropWhile (fun op => !op.seeds) =
      .seedCounter seed :: since := by
    rw [List.dropWhile_append_of_pos (by simpa [seeded] using hb)]
    rfl
  simp only [counter, hd]

theorem counter_concat_seed (h : List Op) (seed : Int32) :
    counter (h ++ [.seedCounter seed]) = if seeded h then counter h else seed := by
  split
  · next hs =>
    obtain ⟨before, first, since, rfl, hb⟩ := exists_first_seed hs
    rw [List.append_assoc, List.cons_append, counter_first_seed hb, counter_first_seed hb]
    simp [List.countP_append, Op.bumps]
  · next hs =>
    rw [counter_first_seed (by simpa using hs)]
    exact Int32.add_zero seed

theorem counter_concat {op : Op} (ho : op.seeds = false) (h : List Op) :
    counter (h ++ [op]) = if op.bumps then counter h + 1 else counter h := by
  have step : ∀ (start : Int32) (l : List Op),
      start + Int32.ofNat ((l ++ [op]).countP Op.bumps) =
        if op.bumps then start + Int32.ofNat (l.countP Op.bumps) + 1
        else start + Int32.ofNat (l.countP Op.bumps) := by
    intro start l
    rw [List.countP_append]
    split <;> rename_i hb <;> simp [hb, Int32.add_assoc]
  by_cases hs : seeded h = true
  · obtain ⟨before, seed, since, rfl, hb⟩ := exists_first_seed hs
    rw [List.append_assoc, List.cons_append, counter_first_seed hb, counter_first_seed hb]
    exact step seed since
  · have hs : seeded h = false := by simpa using hs
    rw [counter_unseeded hs, counter_unseeded (by rw [seeded_concat, hs, ho]; rfl)]
    simpa using step 0 h

theorem takeWhile_unfixed {h : List Op} (hf : .fixSum ∉ h) : h.takeWhile (· ≠ .fixSum) = h :=
  List.takeWhile_eq_self_iff.mpr fun op hop => by
    simpa using fun e : op = .fixSum => hf (e ▸ hop)

/-- The first sum is settled by the first `fixSum`. -/
theorem firstSum_concat (h : List Op) (op : Op) (hf : .fixSum ∈ h ∨ op = .fixSum) :
    firstSum (h ++ [op]) = firstSum h := by
  suffices ht : (h ++ [op]).takeWhile (· ≠ .fixSum) = h.takeWhile (· ≠ .fixSum) by
    rw [firstSum, ht, firstSum]
  induction h with
  | nil =>
    have ho : op = .fixSum := by simpa using hf
    simp [ho]
  | cons a h ih =>
    by_cases ha : a = .fixSum
    · simp [ha]
    · have hr : .fixSum ∈ h ∨ op = .fixSum := by simpa [Ne.symm ha] using hf
      simpa [ha] using ih hr

theorem firstSum_unfixed {h : List Op} (hf : .fixSum ∉ h) : firstSum h = counter h + 10 := by
  rw [firstSum, takeWhile_unfixed hf]

theorem sum?_concat {op : Op} (ho : op ≠ .fixSum) (h : List Op) : sum? (h ++ [op]) = sum? h := by
  by_cases hf : .fixSum ∈ h
  · simp [sum?, hf, firstSum_concat h op (.inl hf)]
  · simp [sum?, hf, Ne.symm ho]

theorem sum?_concat_fixSum (h : List Op) : sum? (h ++ [.fixSum]) = some (firstSum h) := by
  rw [sum?, if_pos (List.mem_append_right h List.mem_cons_self), firstSum_concat h _ (.inr rfl)]

theorem state_concat_seed (h : List Op) (seed : Int32) :
    state (h ++ [.seedCounter seed]) = ((state h).seedCounter seed).2 := by
  rw [state, counter_concat_seed, seeded_concat, sum?_concat (by simp), Statics.seedCounter]
  by_cases hs : seeded h = true <;> simp [state, hs, Op.seeds]

theorem state_concat_fixSum (h : List Op) : state (h ++ [.fixSum]) = (state h).fixSum.2 := by
  rw [state, counter_concat rfl, seeded_concat, sum?_concat_fixSum, Statics.fixSum]
  by_cases hf : .fixSum ∈ h
  · simp [state, sum?, hf, Op.seeds, Op.bumps]
  · simp [state, sum?, hf, Op.seeds, Op.bumps, Series.sumFrom_eq_add, firstSum_unfixed]

/-- Any other operation only moves the counter, if that. -/
theorem state_concat {op : Op} (ho : op.seeds = false) (hf : op ≠ .fixSum) (h : List Op) :
    state (h ++ [op]) = if op.bumps then (state h).bump else state h := by
  rw [state, counter_concat ho, seeded_concat, sum?_concat hf, ho, Bool.or_false]
  split <;> rfl

/-- One operation, on the state that a history leaves. -/
theorem act_state (h : List Op) (op : Op) :
    (state h).act op = (answer h op, state (h ++ [op])) := by
  cases op with
  | seedCounter seed =>
    rw [state_concat_seed]
    by_cases hs : seeded h = true <;> simp [act, answer, Statics.seedCounter, state, hs]
  | fixSum =>
    rw [state_concat_fixSum]
    by_cases hf : .fixSum ∈ h
    · simp [act, answer, Statics.fixSum, state, sum?, hf]
    · simp [act, answer, Statics.fixSum, state, sum?, hf, Series.sumFrom_eq_add, firstSum_unfixed]
  | readSum =>
    rw [state_concat rfl (by simp)]
    by_cases hf : .fixSum ∈ h <;> simp [act, answer, Statics.readSum, state, sum?, hf, Op.bumps]
  | counter => rw [state_concat rfl (by simp)]; rfl
  | seeded => rw [state_concat rfl (by simp)]; rfl
  | incr d =>
    rw [state_concat rfl (by simp)]
    cases hm : d.mode <;> simp [act, answer, Derived.incr, Op.bumps, hm]

theorem answers_concat (h : List Op) (op : Op) :
    answers (h ++ [op]) = answers h ++ [answer h op] := by
  rw [answers, List.mapIdx_concat, List.take_left]
  congr 1
  refine List.mapIdx_eq_mapIdx_iff.mpr fun i hi => ?_
  rw [List.take_append_of_le_length (Nat.le_of_lt hi)]

end History

/-! ## Every run -/

theorem run_fresh (h : List Op) : fresh.run h = (History.answers h, History.state h) := by
  induction h using List.reverseRecOn with
  | nil => rfl
  | append_singleton h op ih => rw [run_concat, ih, History.act_state, History.answers_concat]

/-- In whatever order the operations come, the history decides every answer and
the state at every moment. A seed after the first is refused without effect, and
a read never fixes the sum. -/
theorem history_decides (h : List Op) :
    fresh.run h = (History.answers h, History.state h) ∧
      (∀ seed, History.seeded h = true →
        (fresh.run h).2.act (.seedCounter seed) = (.flag false, (fresh.run h).2)) ∧
      ((fresh.run h).2.act .readSum).2 = (fresh.run h).2 := by
  refine ⟨run_fresh h, fun seed hs => ?_, rfl⟩
  have hseeded : (fresh.run h).2.seeded = true := by rw [run_fresh]; exact hs
  simp only [act, seedCounter, hseeded, if_true]

/-- What moved the counter before the first seed is lost, but not for the sum. -/
example : (fresh.run [.incr { mode := .chainThrough }, .fixSum, .seedCounter 100, .fixSum]).2 =
    { counter := 100, seeded := true, sum? := some 11 } := by decide

end StaticInit.Statics
