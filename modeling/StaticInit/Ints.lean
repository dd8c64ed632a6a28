import StaticInit.Fault

/-!
# Arrays of integers

A fixed number of signed 32-bit slots, all 0 at the start. An index at or past
the end is out of bounds for every operation; otherwise a load gives what was
stored last (`load_store`), and a store never changes the length.
-/

namespace StaticInit

structure Ints where
  slots : Array Int32
deriving DecidableEq

namespace Ints

def zeros (len : Nat) : Ints := ⟨Array.replicate len 0⟩

def len (a : Ints) : Nat := a.slots.size

def isEmpty (a : Ints) : Bool := a.slots.isEmpty

def store (a : Ints) (index : Nat) (value : Int32) : Except Fault Ints :=
  if h : index < a.slots.size then .ok ⟨a.slots.set index value⟩
  else .error (.outOfBounds index a.len)

/-- Stores a bit pattern, to be read back as its two's complement. -/
def storePattern (a : Ints) (index : Nat) (bits : UInt32) : Except Fault Ints :=
  a.store index bits.toInt32

def load (a : Ints) (index : Nat) : Except Fault Int32 :=
  match a.slots[index]? with
  | some value => .ok value
  | none => .error (.outOfBounds index a.len)

@[simp] theorem len_zeros (len : Nat) : (zeros len).len = len := by simp [Ints.len, zeros]

theorem len_store {a b : Ints} {index : Nat} {value : Int32} (h : a.store index value = .ok b) :
    b.len = a.len := by
  unfold store at h
  split at h <;> cases h
  simp [len]

theorem load_store {a b : Ints} {index : Nat} {value : Int32} (h : a.store index value = .ok b)
    (i : Nat) : b.load i = if i = index then .ok value else a.load i := by
  unfold store at h
  split at h <;> cases h
  next hi =>
    by_cases e : index = i
    · subst e; simp [load, hi]
    · simp [load, len, e, Ne.symm e]

end Ints

end StaticInit
