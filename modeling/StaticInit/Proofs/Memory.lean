import StaticInit.Ints

/-!
# Arrays of integers as memory

What the operations on a new array answer, in any order and number. An operation
fails exactly where its index is no slot, and changes nothing then. A load gives
what was stored at its index last, or 0, and it makes no difference whether that
was stored as a number or as the pattern of its bits.

* `toInt32_eq_twosComplement`: the number that a pattern stands for;
* `act_plain`, `run_map_plain`: a pattern is stored as that number;
* `store_cases`, `load_eq_error`: where a store and a load fail;
* `act_of_holds`, `run_of_holds`: one operation, and any number of them, on an
  array that holds what a history left (`Holds`).
-/

namespace StaticInit.Ints

/-- What can be done with an array of integers. -/
inductive Op where
  | store (index : Nat) (value : Int32)
  | storePattern (index : Nat) (bits : UInt32)
  | load (index : Nat)
deriving DecidableEq

inductive Answer where
  | stored
  | loaded (value : Int32)
  | failed (f : Fault)
deriving DecidableEq

/-- The answer to a store, and the array after it: the one from before where the store fails. -/
def afterStore (a : Ints) : Except Fault Ints → Answer × Ints
  | .ok b => (.stored, b)
  | .error f => (.failed f, a)

def act (a : Ints) : Op → Answer × Ints
  | .store index value => a.afterStore (a.store index value)
  | .storePattern index bits => a.afterStore (a.storePattern index bits)
  | .load index =>
    match a.load index with
    | .ok value => (.loaded value, a)
    | .error f => (.failed f, a)

/-- The answers to operations in turn, and the array after them. -/
def run (a : Ints) : List Op → List Answer × Ints
  | [] => ([], a)
  | op :: ops => ((a.act op).1 :: ((a.act op).2.run ops).1, ((a.act op).2.run ops).2)

/-! ## Patterns -/

/-- The number with these bits: from `2 ^ 31` on a pattern stands for a negative one. -/
def twosComplement (bits : UInt32) : Int32 :=
  Int32.ofInt (if bits.toNat < 2147483648 then bits.toNat else bits.toNat - 4294967296)

theorem toInt32_eq_twosComplement (bits : UInt32) : bits.toInt32 = twosComplement bits := by
  have htoInt : bits.toInt32.toInt = bits.toBitVec.toInt := rfl
  have hsplit : bits.toBitVec.toInt =
      if bits.toNat < 2147483648 then (bits.toNat : Int) else bits.toNat - 4294967296 := by
    rw [BitVec.toInt_eq_toNat_cond]
    show (if 2 * bits.toNat < 2 ^ 32 then (bits.toNat : Int) else bits.toNat - (2 ^ 32 : Nat)) = _
    split <;> split <;> omega
  rw [twosComplement, ← hsplit, ← htoInt, Int32.ofInt_toInt]

namespace Op

/-- The operation with a number in place of a pattern. -/
def plain : Op → Op
  | .storePattern index bits => .store index (twosComplement bits)
  | op => op

/-- What the operation would put into a slot. -/
def written? (i : Nat) : Op → Option Int32
  | .store index value => if index = i then some value else none
  | .storePattern index bits => if index = i then some (twosComplement bits) else none
  | .load _ => none

end Op

theorem act_plain (a : Ints) (op : Op) : a.act op.plain = a.act op := by
  cases op with
  | storePattern index bits =>
    simp only [Op.plain, act, storePattern, toInt32_eq_twosComplement]
  | _ => rfl

theorem run_map_plain (a : Ints) (ops : List Op) : a.run (ops.map Op.plain) = a.run ops := by
  induction ops generalizing a with
  | nil => rfl
  | cons op ops ih => simp only [List.map_cons, run, act_plain, ih]

/-! ## Histories -/

namespace History

/-- What a slot holds after a history: what was stored in it last, or 0. -/
def slot (h : List Op) (i : Nat) : Int32 := (h.reverse.findSome? (Op.written? i)).getD 0

/-- The answer to an operation that comes after a history. -/
def answer (len : Nat) (h : List Op) : Op → Answer
  | .load index =>
    if index < len then .loaded (slot h index) else .failed (.outOfBounds index len)
  | .store index _ | .storePattern index _ =>
    if index < len then .stored else .failed (.outOfBounds index len)

/-- The answers to operations that come after a history, each from all that came before it. -/
def answers (len : Nat) (h : List Op) : List Op → List Answer
  | [] => []
  | op :: ops => answer len h op :: answers len (h ++ [op]) ops

theorem slot_concat (h : List Op) (op : Op) (i : Nat) :
    slot (h ++ [op]) i = (op.written? i).getD (slot h i) := by
  rw [slot, List.reverse_concat, List.findSome?_cons]
  cases op.written? i <;> rfl

/-- A slot keeps its value until the next store into it. -/
theorem slot_append_of_unwritten (h : List Op) {after : List Op} {i : Nat}
    (hafter : ∀ op ∈ after, op.written? i = none) : slot (h ++ after) i = slot h i := by
  have hnone : after.reverse.findSome? (Op.written? i) = none :=
    List.findSome?_eq_none_iff.mpr fun op hop => hafter op (List.mem_reverse.mp hop)
  rw [slot, List.reverse_append, List.findSome?_append, hnone, Option.none_or, slot]

theorem written?_plain (op : Op) (i : Nat) : op.plain.written? i = op.written? i := by
  cases op <;> rfl

theorem answer_plain (len : Nat) (h : List Op) (op : Op) :
    answer len h op.plain = answer len h op := by
  cases op <;> rfl

end History

/-! ## One operation -/

theorem store_cases (a : Ints) (index : Nat) (value : Int32) :
    (∃ b, a.store index value = .ok b ∧ index < a.len) ∨
      a.store index value = .error (.outOfBounds index a.len) ∧ a.len ≤ index := by
  unfold store
  split
  · next h => exact .inl ⟨_, rfl, h⟩
  · next h => exact .inr ⟨rfl, Nat.le_of_not_lt h⟩

theorem load_eq_error {a : Ints} {index : Nat} (h : a.len ≤ index) :
    a.load index = .error (.outOfBounds index a.len) := by
  have hnone : a.slots[index]? = none := Array.getElem?_eq_none h
  simp only [load, hnone]

/-- The array holds what a history left in its slots. -/
structure Holds (a : Ints) (len : Nat) (h : List Op) : Prop where
  len_eq : a.len = len
  load_eq : ∀ i < len, a.load i = .ok (History.slot h i)

theorem holds_zeros (len : Nat) : Holds (zeros len) len [] where
  len_eq := len_zeros len
  load_eq i hi := by simp [load, zeros, hi, History.slot]

variable {a : Ints} {len : Nat} {h : List Op}

theorem Holds.of_unwritten {op : Op} (ha : Holds a len h)
    (hop : ∀ i < len, op.written? i = none) : Holds a len (h ++ [op]) where
  len_eq := ha.len_eq
  load_eq i hi := by
    rw [History.slot_concat, hop i hi]
    exact ha.load_eq i hi

theorem act_store_of_holds (ha : Holds a len h) (index : Nat) (value : Int32) :
    (a.act (.store index value)).1 = History.answer len h (.store index value) ∧
      Holds (a.act (.store index value)).2 len (h ++ [.store index value]) := by
  obtain ⟨rfl, hload⟩ := ha
  rcases store_cases a index value with ⟨b, hb, hlt⟩ | ⟨hfault, hle⟩
  · rw [act, hb, History.answer, if_pos hlt]
    refine ⟨rfl, len_store hb, fun i hi => ?_⟩
    show b.load i = _
    rw [load_store hb, History.slot_concat, Op.written?]
    by_cases hindex : index = i
    · rw [if_pos hindex.symm, if_pos hindex]
      rfl
    · rw [if_neg (Ne.symm hindex), if_neg hindex]
      exact hload i hi
  · rw [act, hfault, History.answer, if_neg (Nat.not_lt.mpr hle)]
    exact ⟨rfl, Holds.of_unwritten ⟨rfl, hload⟩ fun i hi => if_neg (by omega)⟩

/-- One operation on what a history left. -/
theorem act_of_holds (ha : Holds a len h) (op : Op) :
    (a.act op).1 = History.answer len h op ∧ Holds (a.act op).2 len (h ++ [op]) := by
  cases op with
  | store index value => exact act_store_of_holds ha index value
  | storePattern index bits =>
    -- The history has the pattern, and the array the number that it stands for.
    obtain ⟨hanswer, hlen, hload⟩ := act_store_of_holds ha index (twosComplement bits)
    rw [← act_plain, ← History.answer_plain]
    refine ⟨hanswer, hlen, fun i hi => ?_⟩
    rw [History.slot_concat, ← History.written?_plain, ← History.slot_concat]
    exact hload i hi
  | load index =>
    have hunwritten : Holds a len (h ++ [.load index]) := ha.of_unwritten fun _ _ => rfl
    by_cases hi : index < len
    · simp only [act, ha.load_eq index hi, History.answer, if_pos hi, true_and]
      exact hunwritten
    · have hfault : a.load index = .error (.outOfBounds index a.len) :=
        load_eq_error (by rw [ha.len_eq]; omega)
      simp only [act, hfault, ha.len_eq, History.answer, if_neg hi, true_and]
      exact hunwritten

/-! ## Any number of operations -/

theorem run_of_holds (ha : Holds a len h) (ops : List Op) :
    (a.run ops).1 = History.answers len h ops ∧ Holds (a.run ops).2 len (h ++ ops) := by
  induction ops generalizing a h with
  | nil => exact ⟨rfl, by rwa [List.append_nil]⟩
  | cons op ops ih =>
    obtain ⟨hanswer, hnext⟩ := act_of_holds ha op
    obtain ⟨hanswers, hlast⟩ := ih hnext
    rw [List.append_assoc, List.singleton_append] at hlast
    exact ⟨by rw [run, History.answers, hanswer, hanswers], hlast⟩

/-- A new array answers every operation from what came before it, and keeps its
length. What is stored as a pattern of bits comes back as that pattern until the
next store into its slot, and the number with these bits can be stored in its
place anywhere. -/
theorem history_loaded (len : Nat) (h : List Op) :
    ((zeros len).run h).1 = History.answers len [] h ∧
      ((zeros len).run h).2.len = len ∧
      (∀ i < len, ((zeros len).run h).2.load i = .ok (History.slot h i)) ∧
      (∀ i < len, ∀ (bits : UInt32) (after : List Op), (∀ op ∈ after, op.written? i = none) →
        ∃ value, ((zeros len).run (h ++ .storePattern i bits :: after)).2.load i = .ok value ∧
          value.toUInt32 = bits) ∧
      ∀ h' : List Op, h'.map Op.plain = h.map Op.plain →
        (zeros len).run h' = (zeros len).run h := by
  obtain ⟨hanswers, hlen, hload⟩ := run_of_holds (holds_zeros len) h
  refine ⟨hanswers, hlen, hload, fun i hi bits after hafter => ?_, fun h' hh' => ?_⟩
  · obtain ⟨-, hstored⟩ := run_of_holds (holds_zeros len) (h ++ .storePattern i bits :: after)
    refine ⟨_, hstored.load_eq i hi, ?_⟩
    rw [List.nil_append, List.append_cons, History.slot_append_of_unwritten _ hafter,
      History.slot_concat, Op.written?, if_pos rfl, Option.getD_some,
      ← toInt32_eq_twosComplement, UInt32.toUInt32_toInt32]
  · rw [← run_map_plain, hh', run_map_plain]

/-- A store out of bounds changes nothing, and a pattern counts like a number. -/
example : (zeros 2).run [.store 0 7, .storePattern 1 0xcafebabe, .store 2 1, .load 1, .load 0] =
    ([.stored, .stored, .failed (.outOfBounds 2 2), .loaded (-889275714), .loaded 7],
      ⟨#[7, -889275714]⟩) := by decide

end StaticInit.Ints
