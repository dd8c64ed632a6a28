import StaticInit.Proofs.Memory
import StaticInit.Proofs.Occupancy
import StaticInit.Script.Object

/-!
# Equality

Two objects are equal exactly if nothing that can be done with them tells them apart
(`Script.Object.same_iff_indistinguishable`). That equal objects answer alike is plain.
The other way round, a single operation tells two objects apart that are not equal: a
load for arrays of integers (`Ints.exists_load_ne`), a look at one slot for arrays of
references (`Refs.exists_get_ne`), and there, if both slots hold rows, a load from these;
for instances the accumulator itself, or one `incr` (`Derived.accumulator_incr_ne`).
-/

namespace StaticInit

/-! ## Arrays -/

/-- Arrays that differ do so at an index of one of them. -/
theorem exists_getElem?_ne {α : Type} {xs ys : Array α} (h : xs ≠ ys) :
    ∃ i < max xs.size ys.size, xs[i]? ≠ ys[i]? := by
  by_contra hall
  refine h (Array.ext_getElem? fun i => ?_)
  by_cases hi : i < max xs.size ys.size
  · by_contra hne
    exact hall ⟨i, hi, hne⟩
  · rw [Array.getElem?_eq_none (by omega), Array.getElem?_eq_none (by omega)]

namespace Ints

theorem getElem?_eq_of_load_eq {a b : Ints} {i : Nat} (h : a.load i = b.load i) :
    a.slots[i]? = b.slots[i]? := by
  unfold load at h
  cases ha : a.slots[i]? <;> cases hb : b.slots[i]? <;> simp_all

theorem exists_load_ne {a b : Ints} (h : a ≠ b) : ∃ i < max a.len b.len, a.load i ≠ b.load i := by
  have hslots : a.slots ≠ b.slots := fun heq => h (congrArg Ints.mk heq)
  obtain ⟨i, hi, hne⟩ := exists_getElem?_ne hslots
  exact ⟨i, hi, fun heq => hne (getElem?_eq_of_load_eq heq)⟩

/-- A load answers with what it finds. -/
theorem load_eq_of_answers {a b : Ints} {i : Nat}
    (h : (a.run [.load i]).1 = (b.run [.load i]).1) : a.load i = b.load i := by
  have hanswer : (a.act (.load i)).1 = (b.act (.load i)).1 := List.head_eq_of_cons_eq h
  unfold act at hanswer
  cases ha : a.load i <;> cases hb : b.load i <;> simp_all

theorem eq_iff_load {a b : Ints} :
    a = b ↔ a.len = b.len ∧ ∀ i < a.len, a.load i = b.load i := by
  refine ⟨fun heq => by simp [heq], fun ⟨hlen, hload⟩ => ?_⟩
  by_contra hne
  obtain ⟨i, hi, hdiffers⟩ := exists_load_ne hne
  exact hdiffers (hload i (by omega))

theorem eq_iff_answers {a b : Ints} : a = b ↔ ∀ ops, (a.run ops).1 = (b.run ops).1 := by
  refine ⟨fun heq ops => by rw [heq], fun hall => ?_⟩
  by_contra hne
  obtain ⟨i, -, hdiffers⟩ := exists_load_ne hne
  exact hdiffers (load_eq_of_answers (hall [.load i]))

end Ints

namespace Refs

variable {α : Type}

theorem getElem?_eq_of_get_eq {a b : Refs α} {i : Nat} (h : a.get i = b.get i) :
    a.slots[i]? = b.slots[i]? := by
  unfold get at h
  rcases ha : a.slots[i]? with _ | _ | x <;> rcases hb : b.slots[i]? with _ | _ | y <;>
    simp_all

theorem exists_get_ne {a b : Refs α} (h : a ≠ b) : ∃ i < max a.len b.len, a.get i ≠ b.get i := by
  have hslots : a.slots ≠ b.slots := fun heq => h (congrArg Refs.mk heq)
  obtain ⟨i, hi, hne⟩ := exists_getElem?_ne hslots
  exact ⟨i, hi, fun heq => hne (getElem?_eq_of_get_eq heq)⟩

theorem get_eq_of_answers {a b : Refs α} {i : Nat}
    (h : (a.run [.get i]).1 = (b.run [.get i]).1) : a.get i = b.get i := by
  have hanswer : (a.act (.get i)).1 = (b.act (.get i)).1 := List.head_eq_of_cons_eq h
  unfold act at hanswer
  cases ha : a.get i <;> cases hb : b.get i <;> simp_all [Answer.observed]

theorem eq_iff_answers {a b : Refs α} : a = b ↔ ∀ ops, (a.run ops).1 = (b.run ops).1 := by
  refine ⟨fun heq ops => by rw [heq], fun hall => ?_⟩
  by_contra hne
  obtain ⟨i, -, hdiffers⟩ := exists_get_ne hne
  exact hdiffers (get_eq_of_answers (hall [.get i]))

theorem isNull_of_get {a : Refs α} {i : Nat} {x : α} (h : a.get i = .ok x) :
    a.isNull i = .ok false := by
  unfold get at h
  unfold isNull
  split at h <;> simp_all

/-- A null slot is told from one with an element in it, whatever the element is. -/
theorem answers_isNull_ne {a b : Refs α} {i : Nat} {x : α} (ha : a.isNull i = .ok true)
    (hb : b.get i = .ok x) : (a.run [.isNull i]).1 ≠ (b.run [.isNull i]).1 := by
  simp [run, act, ha, isNull_of_get hb, Answer.observed]

/-! ## Arrays of rows -/

/-- What can be done with an array of rows: also to load from the row in a slot. -/
inductive RowOp where
  | onArray (op : Op Ints)
  | load (index column : Nat)

/-- The answer without the element that it has, if it has one. -/
def Answer.hide : Answer α → Answer Unit
  | .stored => .stored
  | .element _ => .element ()
  | .flag b => .flag b
  | .count n => .count n
  | .failed f => .failed f

/-- Of a row itself only the loads from it tell. -/
inductive RowAnswer where
  | ofArray (answer : Answer Unit)
  | loaded (read : Except Fault Int32)

def rowAct (a : Refs Ints) : RowOp → RowAnswer × Refs Ints
  | .onArray op => (.ofArray (a.act op).1.hide, (a.act op).2)
  | .load index column => (.loaded ((a.get index).bind fun r => r.load column), a)

/-- The answers to operations in turn. -/
def rowAnswers (a : Refs Ints) : List RowOp → List RowAnswer
  | [] => []
  | op :: ops => (a.rowAct op).1 :: (a.rowAct op).2.rowAnswers ops

theorem rowAnswers_isNull_ne {a b : Refs Ints} {i : Nat} {r : Ints} (ha : a.isNull i = .ok true)
    (hb : b.get i = .ok r) :
    a.rowAnswers [.onArray (.isNull i)] ≠ b.rowAnswers [.onArray (.isNull i)] := by
  simp [rowAnswers, rowAct, act, ha, isNull_of_get hb, Answer.observed, Answer.hide]

theorem exists_rowAnswers_ne {a b : Refs Ints} (h : a ≠ b) :
    ∃ i < max a.len b.len,
      a.rowAnswers [.onArray (.get i)] ≠ b.rowAnswers [.onArray (.get i)] ∨
        ∃ column, a.rowAnswers [.load i column] ≠ b.rowAnswers [.load i column] := by
  obtain ⟨i, hi, hne⟩ := exists_get_ne h
  refine ⟨i, hi, ?_⟩
  cases ha : a.get i <;> cases hb : b.get i <;> rw [ha, hb] at hne
  · exact .inl (by simpa [rowAnswers, rowAct, act, ha, hb, Answer.observed, Answer.hide] using hne)
  · exact .inl (by simp [rowAnswers, rowAct, act, ha, hb, Answer.observed, Answer.hide])
  · exact .inl (by simp [rowAnswers, rowAct, act, ha, hb, Answer.observed, Answer.hide])
  · next r r' =>
    have hrow : r ≠ r' := fun heq => hne (congrArg Except.ok heq)
    obtain ⟨column, -, hload⟩ := Ints.exists_load_ne hrow
    refine .inr ⟨column, ?_⟩
    simpa [rowAnswers, rowAct, ha, hb, Except.bind] using hload

theorem eq_iff_rowAnswers {a b : Refs Ints} :
    a = b ↔ ∀ ops, a.rowAnswers ops = b.rowAnswers ops := by
  refine ⟨fun heq ops => by rw [heq], fun hall => ?_⟩
  by_contra hne
  obtain ⟨i, -, hlook | ⟨column, hload⟩⟩ := exists_rowAnswers_ne hne
  · exact hlook (hall [.onArray (.get i)])
  · exact hload (hall [.load i column])

end Refs

/-! ## Instances -/

/-- What can be done with an instance. -/
inductive Move where
  | incr
  | decr

namespace Base

def move (b : Base) : Move → Base
  | .incr => b.incr
  | .decr => b.decr.2

theorem eq_iff_moves {a b : Base} :
    a = b ↔ ∀ moves : List Move,
      (moves.foldl move a).accumulator = (moves.foldl move b).accumulator := by
  refine ⟨fun heq moves => by rw [heq], fun hall => ?_⟩
  exact congrArg Base.mk (hall [])

end Base

namespace Derived

/-- The accumulator before the first move and after each, on a static state of its own. -/
def accumulators (d : Derived) (s : Statics) : List Move → List Int32
  | [] => [d.accumulator]
  | .incr :: moves => d.accumulator :: (d.incr s).1.accumulators (d.incr s).2 moves
  | .decr :: moves => d.accumulator :: d.decr.2.accumulators s moves

/-- Of two instances with one accumulator one `incr` moves only that in the chaining mode. -/
theorem accumulator_incr_ne {a b : Derived} (h : a.accumulator = b.accumulator)
    (hmode : a.mode ≠ b.mode) (s t : Statics) :
    (a.incr s).1.accumulator ≠ (b.incr t).1.accumulator := by
  -- also for the greatest number, which is followed by the least
  have hmoves : ∀ n : Int32, n + 1 ≠ n := by
    intro n
    grind
  obtain ⟨ma, xa⟩ := a
  obtain ⟨mb, xb⟩ := b
  simp only [accumulator] at h
  cases ma <;> cases mb <;> simp_all [incr, accumulator]

theorem accumulators_incr_ne {a b : Derived} (h : a.accumulator = b.accumulator)
    (hmode : a.mode ≠ b.mode) (s : Statics) :
    a.accumulators s [.incr] ≠ b.accumulators s [.incr] := by
  intro heq
  have hafter : (a.incr s).1.accumulator = (b.incr s).1.accumulator :=
    List.head_eq_of_cons_eq (List.tail_eq_of_cons_eq heq)
  exact accumulator_incr_ne h hmode s s hafter

theorem eq_iff_accumulators {a b : Derived} :
    a = b ↔ ∀ s moves, a.accumulators s moves = b.accumulators s moves := by
  refine ⟨fun heq s moves => by rw [heq], fun hall => ?_⟩
  have haccumulator : a.accumulator = b.accumulator := List.head_eq_of_cons_eq (hall {} [])
  have hmode : a.mode = b.mode := by
    by_contra hne
    exact accumulators_incr_ne haccumulator hne {} (hall {} [.incr])
  obtain ⟨ma, xa⟩ := a
  obtain ⟨mb, xb⟩ := b
  cases hmode
  exact congrArg (Derived.mk ma) (congrArg Base.mk haccumulator)

end Derived

/-! ## Objects -/

namespace Script.Object

theorem some_decide_eq_true {p : Prop} [Decidable p] : some (decide p) = some true ↔ p := by
  rw [Option.some_inj, decide_eq_true_iff]

theorem some_decide_eq_false {p : Prop} [Decidable p] : some (decide p) = some false ↔ ¬p := by
  rw [Option.some_inj, decide_eq_false_iff_not]

/-- Two arrays of integers, of rows or of strings are equal exactly if all operations in any
order answer alike on both, and two instances exactly if any moves lead both to the same
accumulators. A null slot is not the same as one with an element in it, and instances of
different modes are never equal. -/
theorem same_iff_indistinguishable :
    (∀ a b : Ints,
      ((ints a).same? (ints b) = some true ↔
        a.len = b.len ∧ ∀ i < a.len, a.load i = b.load i) ∧
      ((ints a).same? (ints b) = some true ↔ ∀ ops, (a.run ops).1 = (b.run ops).1)) ∧
    (∀ a b : Refs Ints,
      ((rows a).same? (rows b) = some true ↔ ∀ ops, a.rowAnswers ops = b.rowAnswers ops) ∧
      ∀ i r, a.isNull i = .ok true → b.get i = .ok r →
        (rows a).same? (rows b) = some false ∧
          a.rowAnswers [.onArray (.isNull i)] ≠ b.rowAnswers [.onArray (.isNull i)]) ∧
    (∀ a b : Refs String,
      ((strings a).same? (strings b) = some true ↔ ∀ ops, (a.run ops).1 = (b.run ops).1) ∧
      ∀ i x, a.isNull i = .ok true → b.get i = .ok x →
        (strings a).same? (strings b) = some false ∧
          (a.run [.isNull i]).1 ≠ (b.run [.isNull i]).1) ∧
    (∀ a b : Base,
      (base a).same? (base b) = some true ↔ ∀ moves : List Move,
        (moves.foldl Base.move a).accumulator = (moves.foldl Base.move b).accumulator) ∧
    (∀ a b : Derived,
      ((derived a).same? (derived b) = some true ↔
        ∀ s moves, a.accumulators s moves = b.accumulators s moves) ∧
      (a.accumulator = b.accumulator → a.mode ≠ b.mode →
        (derived a).same? (derived b) = some false ∧
          ∀ s, a.accumulators s [.incr] ≠ b.accumulators s [.incr])) := by
  refine ⟨fun a b => ⟨?_, ?_⟩, fun a b => ⟨?_, fun i r ha hb => ?_⟩,
    fun a b => ⟨?_, fun i x ha hb => ?_⟩, fun a b => ?_,
    fun a b => ⟨?_, fun haccumulator hmode => ?_⟩⟩
  · exact some_decide_eq_true.trans Ints.eq_iff_load
  · exact some_decide_eq_true.trans Ints.eq_iff_answers
  · exact some_decide_eq_true.trans Refs.eq_iff_rowAnswers
  · have hne := Refs.rowAnswers_isNull_ne ha hb
    exact ⟨some_decide_eq_false.mpr fun heq => hne (by rw [heq]), hne⟩
  · exact some_decide_eq_true.trans Refs.eq_iff_answers
  · have hne := Refs.answers_isNull_ne ha hb
    exact ⟨some_decide_eq_false.mpr fun heq => hne (by rw [heq]), hne⟩
  · exact some_decide_eq_true.trans Base.eq_iff_moves
  · exact some_decide_eq_true.trans Derived.eq_iff_accumulators
  · have hne := Derived.accumulators_incr_ne haccumulator hmode
    exact ⟨some_decide_eq_false.mpr fun heq => hmode (by rw [heq]), hne⟩

/-- A null slot and one with an empty row in it, or an empty string; and two instances of
different modes that both count as high as they can. -/
theorem same_iff_indistinguishable_edge :
    (rows (Refs.nulls 1)).same? (rows ⟨#[some (Ints.zeros 0)]⟩) = some false ∧
    (strings (Refs.nulls 1)).same? (strings ⟨#[some ""]⟩) = some false ∧
    (derived ⟨.noOp, ⟨2147483647⟩⟩).same? (derived ⟨.chainThrough, ⟨2147483647⟩⟩) =
      some false := by
  obtain ⟨-, hrows, hstrings, -, hderived⟩ := same_iff_indistinguishable
  have hrow : (⟨#[some (Ints.zeros 0)]⟩ : Refs Ints).get 0 = .ok (Ints.zeros 0) := by decide
  have hstring : (⟨#[some ""]⟩ : Refs String).get 0 = .ok "" := by decide
  have hmodes : Override.noOp ≠ Override.chainThrough := by decide
  exact ⟨((hrows _ _).2 0 _ (by decide) hrow).1, ((hstrings _ _).2 0 _ (by decide) hstring).1,
    ((hderived ⟨.noOp, _⟩ ⟨.chainThrough, _⟩).2 rfl hmodes).1⟩

end Script.Object

end StaticInit
