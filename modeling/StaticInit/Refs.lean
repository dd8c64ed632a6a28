import StaticInit.Fault

/-!
# Arrays of nullable references

A fixed number of slots, each null until an element is stored in it; there is
no way back to null. To read a null slot is a fault of its own, apart from an
index out of bounds. An element that is itself empty still fills its slot.
-/

namespace StaticInit

structure Refs (α : Type) where
  slots : Array (Option α)
deriving DecidableEq

namespace Refs

variable {α : Type}

def nulls (len : Nat) : Refs α := ⟨Array.replicate len none⟩

def len (a : Refs α) : Nat := a.slots.size

def isEmpty (a : Refs α) : Bool := a.slots.isEmpty

def store (a : Refs α) (index : Nat) (value : α) : Except Fault (Refs α) :=
  if h : index < a.slots.size then .ok ⟨a.slots.set index (some value)⟩
  else .error (.outOfBounds index a.len)

/-- The element at the index. -/
def get (a : Refs α) (index : Nat) : Except Fault α :=
  match a.slots[index]? with
  | some (some value) => .ok value
  | some none => .error (.nullSlot index)
  | none => .error (.outOfBounds index a.len)

def isNull (a : Refs α) (index : Nat) : Except Fault Bool :=
  match a.slots[index]? with
  | some slot => .ok slot.isNone
  | none => .error (.outOfBounds index a.len)

/-- How many slots are not null. -/
def occupied (a : Refs α) : Nat := a.slots.countP Option.isSome

@[simp] theorem len_nulls (len : Nat) : (nulls len : Refs α).len = len := by
  simp [Refs.len, nulls]

@[simp] theorem occupied_nulls (len : Nat) : (nulls len : Refs α).occupied = 0 := by
  simp [occupied, nulls, Array.countP_replicate]

theorem len_store {a b : Refs α} {index : Nat} {value : α} (h : a.store index value = .ok b) :
    b.len = a.len := by
  unfold store at h
  split at h <;> cases h
  simp [len]

theorem get_store {a b : Refs α} {index : Nat} {value : α} (h : a.store index value = .ok b)
    (i : Nat) : b.get i = if i = index then .ok value else a.get i := by
  unfold store at h
  split at h <;> cases h
  next hi =>
    by_cases e : index = i
    · subst e; simp [get, hi]
    · simp [get, len, e, Ne.symm e]

end Refs

end StaticInit
