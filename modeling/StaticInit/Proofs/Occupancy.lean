import Mathlib.Data.Finset.Card
import Mathlib.Data.Finset.Range
import StaticInit.Refs

/-!
# What is stored in an array of nullable references

The observers of a new array agree with one another and with the history of its
stores, whatever the elements are (`Refs.history_observed`): a slot holds what
was stored in it last and is null until then, and as many slots are occupied as
the stores have named. Nothing but an index decides whether an operation is out
of bounds, and nothing but a store into a null slot changes the number of
occupied slots.

* `occupied_store`: what one store adds to the occupied slots of any array;
* `History.mem_named_iff`: the slots named so far are those that hold something;
* `act_of_holds`, `run_of_holds`: one operation, and any number of them, on an
  array that holds what a history left (`Holds`).
-/

namespace StaticInit.Refs

/-- What can be done with an array of nullable references. -/
inductive Op (α : Type) where
  | store (index : Nat) (value : α)
  | get (index : Nat)
  | isNull (index : Nat)
  | occupied
  | len
deriving DecidableEq

inductive Answer (α : Type) where
  | stored
  | element (value : α)
  | flag (b : Bool)
  | count (n : Nat)
  | failed (f : Fault)
deriving DecidableEq

variable {α : Type}

/-- The answer of an observer that may fail. -/
def Answer.observed {β : Type} (answer : β → Answer α) : Except Fault β → Answer α
  | .ok x => answer x
  | .error f => .failed f

def act (a : Refs α) : Op α → Answer α × Refs α
  | .store index value =>
    match a.store index value with
    | .ok b => (.stored, b)
    | .error f => (.failed f, a)
  | .get index => (.observed .element (a.get index), a)
  | .isNull index => (.observed .flag (a.isNull index), a)
  | .occupied => (.count a.occupied, a)
  | .len => (.count a.len, a)

/-- The answers to operations in turn, and the array after them. -/
def run (a : Refs α) : List (Op α) → List (Answer α) × Refs α
  | [] => ([], a)
  | op :: ops => ((a.act op).1 :: ((a.act op).2.run ops).1, ((a.act op).2.run ops).2)

namespace Op

/-- What the operation would put into a slot. -/
def written? (i : Nat) : Op α → Option α
  | .store index value => if index = i then some value else none
  | _ => none

/-- The slot that the operation would store in. -/
def target? : Op α → Option Nat
  | .store index _ => some index
  | _ => none

/-- Whether the operation stores in a null slot of the array. -/
def fills (a : Refs α) : Op α → Bool
  | .store index _ => a.isNull index = .ok true
  | _ => false

theorem written?_eq_some_iff {op : Op α} {i : Nat} {value : α} :
    op.written? i = some value ↔ op = .store i value := by
  cases op <;> simp [written?]

end Op

/-! ## Histories -/

namespace History

/-- What a slot holds after a history: what was stored in it last, if anything was. -/
def slot? (h : List (Op α)) (i : Nat) : Option α := h.reverse.findSome? (Op.written? i)

/-- What is read at an index after a history. -/
def read (len : Nat) (h : List (Op α)) (i : Nat) : Except Fault α :=
  if i < len then
    match slot? h i with
    | some value => .ok value
    | none => .error (.nullSlot i)
  else .error (.outOfBounds i len)

/-- The slots that some store has named, each counted once. -/
def named (len : Nat) (h : List (Op α)) : Finset Nat :=
  (h.filterMap Op.target?).toFinset.filter (· < len)

/-- The answer to an operation that comes after a history. -/
def answer (len : Nat) (h : List (Op α)) : Op α → Answer α
  | .store index _ => if index < len then .stored else .failed (.outOfBounds index len)
  | .get index => .observed .element (read len h index)
  | .isNull index =>
    if index < len then .flag (slot? h index).isNone else .failed (.outOfBounds index len)
  | .occupied => .count (named len h).card
  | .len => .count len

/-- The answers to operations that come after a history, each from all that came before it. -/
def answers (len : Nat) (h : List (Op α)) : List (Op α) → List (Answer α)
  | [] => []
  | op :: ops => answer len h op :: answers len (h ++ [op]) ops

theorem slot?_concat (h : List (Op α)) (op : Op α) (i : Nat) :
    slot? (h ++ [op]) i = (op.written? i).or (slot? h i) := by
  rw [slot?, List.reverse_concat, List.findSome?_cons]
  cases op.written? i <;> rfl

theorem slot?_eq_none_iff {h : List (Op α)} {i : Nat} :
    slot? h i = none ↔ ∀ value, .store i value ∉ h := by
  rw [slot?, List.findSome?_eq_none_iff]
  refine ⟨fun hnone value hmem => ?_, fun hnever op hop => ?_⟩
  · have hwritten := hnone _ (List.mem_reverse.mpr hmem)
    simp [Op.written?] at hwritten
  · refine Option.eq_none_iff_forall_ne_some.mpr fun value hvalue => ?_
    rw [Op.written?_eq_some_iff.mp hvalue] at hop
    exact hnever value (List.mem_reverse.mp hop)

theorem read_eq_outOfBounds_iff {len : Nat} {h : List (Op α)} {i : Nat} :
    read len h i = .error (.outOfBounds i len) ↔ len ≤ i := by
  unfold read
  split
  · next hi => cases slot? h i <;> simp [hi]
  · next hi => simp [Nat.not_lt.mp hi]

theorem read_eq_ok_iff {len : Nat} {h : List (Op α)} {i : Nat} (hi : i < len) {value : α} :
    read len h i = .ok value ↔ slot? h i = some value := by
  rw [read, if_pos hi]
  cases slot? h i <;> simp

theorem read_eq_nullSlot_iff {len : Nat} {h : List (Op α)} {i : Nat} (hi : i < len) :
    read len h i = .error (.nullSlot i) ↔ slot? h i = none := by
  rw [read, if_pos hi]
  cases slot? h i <;> simp

theorem mem_named_iff {len : Nat} {h : List (Op α)} {i : Nat} :
    i ∈ named len h ↔ i < len ∧ slot? h i ≠ none := by
  have htarget : ∀ op : Op α, op.target? = some i ↔ ∃ value, op = .store i value := by
    intro op
    cases op <;> simp [Op.target?]
  have hstored : (∃ op ∈ h, op.target? = some i) ↔ slot? h i ≠ none := by
    rw [ne_eq, slot?_eq_none_iff, not_forall_not]
    refine ⟨fun ⟨op, hop, htargets⟩ => ?_, fun ⟨value, hmem⟩ => ⟨_, hmem, rfl⟩⟩
    obtain ⟨value, rfl⟩ := (htarget op).mp htargets
    exact ⟨value, hop⟩
  rw [named, Finset.mem_filter, List.mem_toFinset, List.mem_filterMap, hstored, and_comm]

theorem named_subset_range (len : Nat) (h : List (Op α)) : named len h ⊆ Finset.range len :=
  fun _ hi => Finset.mem_range.mpr (mem_named_iff.mp hi).1

theorem named_concat_store {len index : Nat} (hindex : index < len) (h : List (Op α)) (value : α) :
    named len (h ++ [.store index value]) = insert index (named len h) := by
  ext i
  rw [Finset.mem_insert, mem_named_iff, mem_named_iff, slot?_concat, Op.written?]
  by_cases hi : index = i
  · simp [← hi, hindex]
  · simp [hi, Ne.symm hi]

theorem named_concat_of_unwritten {len : Nat} {op : Op α} (hop : ∀ i < len, op.written? i = none)
    (h : List (Op α)) : named len (h ++ [op]) = named len h := by
  ext i
  rw [mem_named_iff, mem_named_iff, slot?_concat]
  refine and_congr_right fun hi => ?_
  rw [hop i hi, Option.none_or]

end History

/-! ## One operation -/

theorem store_cases (a : Refs α) (index : Nat) (value : α) :
    (∃ b, a.store index value = .ok b ∧ index < a.len) ∨
      a.store index value = .error (.outOfBounds index a.len) ∧ a.len ≤ index := by
  unfold store
  split
  · next h => exact .inl ⟨_, rfl, h⟩
  · next h => exact .inr ⟨rfl, Nat.le_of_not_lt h⟩

theorem get_eq_error {a : Refs α} {index : Nat} (h : a.len ≤ index) :
    a.get index = .error (.outOfBounds index a.len) := by
  have hnone : a.slots[index]? = none := Array.getElem?_eq_none h
  simp only [get, hnone]

theorem get_of_isNull {a : Refs α} {index : Nat} (h : a.isNull index = .ok true) :
    a.get index = .error (.nullSlot index) := by
  unfold isNull at h
  split at h
  · next slot hslot =>
    cases slot with
    | none => simp only [get, hslot]
    | some x => cases h
  · cases h

theorem slots_store {a b : Refs α} {index : Nat} {value : α} (h : a.store index value = .ok b)
    (i : Nat) : b.slots[i]? = if i = index then some (some value) else a.slots[i]? := by
  unfold store at h
  split at h <;> cases h
  next hindex =>
    by_cases hi : index = i
    · simp [← hi, hindex]
    · simp [hi, Ne.symm hi]

/-- A store that succeeds fills one slot more if its slot was null, and none otherwise. -/
theorem occupied_store {a b : Refs α} {index : Nat} {value : α}
    (h : a.store index value = .ok b) :
    b.occupied = a.occupied + if a.isNull index = .ok true then 1 else 0 := by
  unfold store at h
  split at h <;> cases h
  next hindex =>
    have hnull : a.isNull index = .ok a.slots[index].isNone := by
      simp [isNull, Array.getElem?_eq_getElem hindex]
    rw [occupied, Array.countP_set, occupied, hnull]
    cases hslot : a.slots[index] with
    | none => simp
    | some x =>
      have hpos : 0 < a.slots.countP Option.isSome :=
        Array.countP_pos_iff.mpr ⟨some x, hslot ▸ Array.getElem_mem hindex, rfl⟩
      simp only [Option.isSome_some, Option.isNone_some, if_true, Except.ok.injEq,
        Bool.false_eq_true, if_false]
      omega

/-- Only a store into a null slot changes the number of occupied slots. -/
theorem occupied_act (a : Refs α) (op : Op α) :
    (a.act op).2.occupied = a.occupied + if op.fills a then 1 else 0 := by
  cases op with
  | store index value =>
    rcases store_cases a index value with ⟨b, hb, -⟩ | ⟨hfault, hle⟩
    · simp only [act, hb, Op.fills, decide_eq_true_eq]
      exact occupied_store hb
    · have hnone : a.slots[index]? = none := Array.getElem?_eq_none hle
      simp [act, hfault, Op.fills, isNull, hnone]
  | _ => rfl

/-- The array holds what a history left in its slots. -/
structure Holds (a : Refs α) (len : Nat) (h : List (Op α)) : Prop where
  len_eq : a.len = len
  slot_eq : ∀ i < len, a.slots[i]? = some (History.slot? h i)
  occupied_eq : a.occupied = (History.named len h).card

theorem holds_nulls (len : Nat) : Holds (nulls len : Refs α) len [] where
  len_eq := len_nulls len
  slot_eq i hi := by simp [nulls, hi, History.slot?]
  occupied_eq := occupied_nulls len

variable {a : Refs α} {len : Nat} {h : List (Op α)}

namespace Holds

theorem slot_eq_none (ha : Holds a len h) {i : Nat} (hi : len ≤ i) : a.slots[i]? = none :=
  Array.getElem?_eq_none (le_of_eq_of_le ha.len_eq hi)

theorem get_eq (ha : Holds a len h) (i : Nat) : a.get i = History.read len h i := by
  by_cases hi : i < len
  · rw [get, ha.slot_eq i hi, History.read, if_pos hi]
    cases History.slot? h i <;> rfl
  · rw [get, ha.slot_eq_none (Nat.not_lt.mp hi), ha.len_eq, History.read, if_neg hi]

theorem isNull_eq (ha : Holds a len h) (i : Nat) :
    a.isNull i =
      if i < len then .ok (History.slot? h i).isNone else .error (.outOfBounds i len) := by
  by_cases hi : i < len
  · rw [isNull, ha.slot_eq i hi, if_pos hi]
  · rw [isNull, ha.slot_eq_none (Nat.not_lt.mp hi), ha.len_eq, if_neg hi]

theorem of_unwritten {op : Op α} (ha : Holds a len h) (hop : ∀ i < len, op.written? i = none) :
    Holds a len (h ++ [op]) where
  len_eq := ha.len_eq
  slot_eq i hi := by
    rw [History.slot?_concat, hop i hi, Option.none_or]
    exact ha.slot_eq i hi
  occupied_eq := by
    rw [History.named_concat_of_unwritten hop]
    exact ha.occupied_eq

/-- The slots that are not null are those that a store has named. -/
theorem filter_isNull_eq (ha : Holds a len h) :
    (Finset.range len).filter (fun i => a.isNull i = .ok false) = History.named len h := by
  ext i
  rw [Finset.mem_filter, Finset.mem_range, History.mem_named_iff]
  refine and_congr_right fun hi => ?_
  rw [ha.isNull_eq, if_pos hi]
  cases History.slot? h i <;> simp

theorem store_eq_error_iff (ha : Holds a len h) (i : Nat) (value : α) :
    a.store i value = .error (.outOfBounds i len) ↔ len ≤ i := by
  rw [← ha.len_eq]
  rcases store_cases a i value with ⟨b, hb, hlt⟩ | ⟨hfault, hle⟩
  · simp [hb, hlt]
  · simp [hfault, hle]

theorem isNull_eq_error_iff (ha : Holds a len h) (i : Nat) :
    a.isNull i = .error (.outOfBounds i len) ↔ len ≤ i := by
  rw [ha.isNull_eq]
  split
  · next hi => simp [hi]
  · next hi => simp [Nat.not_lt.mp hi]

theorem isNull_eq_true_iff (ha : Holds a len h) {i : Nat} (hi : i < len) :
    a.isNull i = .ok true ↔ History.slot? h i = none := by
  rw [ha.isNull_eq, if_pos hi]
  simp

theorem occupied_le (ha : Holds a len h) : a.occupied ≤ len := by
  rw [ha.occupied_eq]
  calc (History.named len h).card
      ≤ (Finset.range len).card := Finset.card_le_card (History.named_subset_range len h)
    _ = len := Finset.card_range len

end Holds

theorem holds_store {b : Refs α} {index : Nat} {value : α} (ha : Holds a len h)
    (hb : a.store index value = .ok b) (hindex : index < len) :
    Holds b len (h ++ [.store index value]) where
  len_eq := (len_store hb).trans ha.len_eq
  slot_eq i hi := by
    rw [slots_store hb, History.slot?_concat, Op.written?]
    by_cases hname : index = i
    · rw [if_pos hname.symm, if_pos hname, Option.some_or]
    · rw [if_neg (Ne.symm hname), if_neg hname, Option.none_or]
      exact ha.slot_eq i hi
  occupied_eq := by
    rw [occupied_store hb, ha.isNull_eq, if_pos hindex, ha.occupied_eq,
      History.named_concat_store hindex]
    cases hslot : History.slot? h index with
    | none =>
      have hnew : index ∉ History.named len h :=
        fun hmem => (History.mem_named_iff.mp hmem).2 hslot
      rw [Finset.card_insert_of_notMem hnew]
      rfl
    | some x =>
      have hold : index ∈ History.named len h :=
        History.mem_named_iff.mpr ⟨hindex, by simp [hslot]⟩
      rw [Finset.insert_eq_of_mem hold]
      rfl

/-- One operation on what a history left. -/
theorem act_of_holds (ha : Holds a len h) (op : Op α) :
    (a.act op).1 = History.answer len h op ∧ Holds (a.act op).2 len (h ++ [op]) := by
  cases op with
  | store index value =>
    rcases store_cases a index value with ⟨b, hb, hlt⟩ | ⟨hfault, hle⟩
    · rw [ha.len_eq] at hlt
      rw [act, hb, History.answer, if_pos hlt]
      exact ⟨rfl, holds_store ha hb hlt⟩
    · rw [ha.len_eq] at hfault hle
      rw [act, hfault, History.answer, if_neg (Nat.not_lt.mpr hle)]
      exact ⟨rfl, ha.of_unwritten fun i hi => if_neg (by omega)⟩
  | get index =>
    rw [act, ha.get_eq]
    exact ⟨rfl, ha.of_unwritten fun _ _ => rfl⟩
  | isNull index =>
    rw [act, ha.isNull_eq, History.answer]
    refine ⟨?_, ha.of_unwritten fun _ _ => rfl⟩
    split <;> rfl
  | occupied =>
    rw [act, ha.occupied_eq]
    exact ⟨rfl, ha.of_unwritten fun _ _ => rfl⟩
  | len =>
    rw [act, ha.len_eq]
    exact ⟨rfl, ha.of_unwritten fun _ _ => rfl⟩

/-! ## Any number of operations -/

theorem run_of_holds (ha : Holds a len h) (ops : List (Op α)) :
    (a.run ops).1 = History.answers len h ops ∧ Holds (a.run ops).2 len (h ++ ops) := by
  induction ops generalizing a h with
  | nil => exact ⟨rfl, by rwa [List.append_nil]⟩
  | cons op ops ih =>
    obtain ⟨hanswer, hnext⟩ := act_of_holds ha op
    obtain ⟨hanswers, hlast⟩ := ih hnext
    rw [List.append_assoc, List.singleton_append] at hlast
    exact ⟨by rw [run, History.answers, hanswer, hanswers], hlast⟩

theorem occupied_le_run (a : Refs α) (ops : List (Op α)) :
    a.occupied ≤ (a.run ops).2.occupied := by
  induction ops generalizing a with
  | nil => exact Nat.le_refl _
  | cons op ops ih =>
    calc a.occupied
        ≤ (a.act op).2.occupied := by rw [occupied_act]; exact Nat.le_add_right _ _
      _ ≤ (a.run (op :: ops)).2.occupied := ih (a.act op).2

/-- The array that a history leaves of a new one. -/
def left (len : Nat) (h : List (Op α)) : Refs α := ((nulls len).run h).2

/-- Whatever has been done with a new array, its answers are those of its history and
its length is as it was. An index is out of bounds for all operations or for none;
any other slot gives what was stored in it last, or is null, which all observers
tell alike. The number of occupied slots is that of the slots named by a store and
that of the slots that are not null, and only a store into a null slot moves it. -/
theorem history_observed (len : Nat) (h : List (Op α)) :
    ((nulls len).run h).1 = History.answers len [] h ∧
      (left len h).len = len ∧
      (∀ i, (∀ value, (left len h).store i value = .error (.outOfBounds i len) ↔ len ≤ i) ∧
        ((left len h).get i = .error (.outOfBounds i len) ↔ len ≤ i) ∧
        ((left len h).isNull i = .error (.outOfBounds i len) ↔ len ≤ i)) ∧
      (∀ i < len,
        (∀ value, (left len h).get i = .ok value ↔ History.slot? h i = some value) ∧
        ((left len h).get i = .error (.nullSlot i) ↔ ∀ value, .store i value ∉ h) ∧
        ((left len h).get i = .error (.nullSlot i) ↔ (left len h).isNull i = .ok true)) ∧
      (left len h).occupied = (History.named len h).card ∧
      (left len h).occupied =
        ((Finset.range len).filter fun i => (left len h).isNull i = .ok false).card ∧
      (left len h).occupied ≤ len ∧
      (∀ op, ((left len h).act op).2.occupied =
        (left len h).occupied + if op.fills (left len h) then 1 else 0) ∧
      ∀ after, (left len h).occupied ≤ ((left len h).run after).2.occupied := by
  obtain ⟨hanswers, hleft⟩ : _ ∧ Holds (left len h) len h := run_of_holds (holds_nulls len) h
  refine ⟨hanswers, hleft.len_eq, fun i => ⟨hleft.store_eq_error_iff i, ?_, ?_⟩,
    fun i hi => ⟨fun value => ?_, ?_, ?_⟩, hleft.occupied_eq, ?_, hleft.occupied_le,
    occupied_act _, occupied_le_run _⟩
  · rw [hleft.get_eq, History.read_eq_outOfBounds_iff]
  · exact hleft.isNull_eq_error_iff i
  · rw [hleft.get_eq, History.read_eq_ok_iff hi]
  · rw [hleft.get_eq, History.read_eq_nullSlot_iff hi, History.slot?_eq_none_iff]
  · rw [hleft.get_eq, hleft.isNull_eq_true_iff hi, History.read_eq_nullSlot_iff hi]
  · rw [hleft.filter_isNull_eq, hleft.occupied_eq]

/-- An empty element fills its slot, and the slot beside it stays null. -/
theorem history_observed_empty :
    (left 2 [.store 1 ""]).get 1 = .ok "" ∧
      (left 2 [.store 1 ""]).get 0 = .error (.nullSlot 0) ∧
      (left 2 [.store 1 ""]).occupied = 1 := by
  obtain ⟨-, -, -, hslots, hoccupied, -⟩ := history_observed 2 [.store 1 ""]
  have hstored : History.slot? [.store 1 ""] 1 = some "" := by decide
  have hnever : ∀ value, .store 0 value ∉ [Op.store 1 ""] := by simp
  have hnamed : (History.named 2 [.store 1 ""]).card = 1 := by decide
  exact ⟨((hslots 1 (by decide)).1 "").mpr hstored, (hslots 0 (by decide)).2.1.mpr hnever,
    hoccupied.trans hnamed⟩

/-- A store in the same slot again fills no other. -/
example : ((nulls 3 : Refs String).run
      [.store 1 "a", .occupied, .store 1 "", .store 3 "b", .occupied, .isNull 1, .get 0]).1 =
    [.stored, .count 1, .stored, .failed (.outOfBounds 3 3), .count 1, .flag false,
      .failed (.nullSlot 0)] := by decide

end StaticInit.Refs
