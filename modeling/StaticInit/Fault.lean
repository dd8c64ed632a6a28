/-!
# Faults

The causes for which an operation on the library's objects fails, and their
wording (`Fault.message`). An operation that fails changes nothing.
-/

namespace StaticInit

inductive Fault where
  /-- No slot has this index. -/
  | outOfBounds (index len : Nat)
  /-- The slot exists and nothing was ever stored in it. -/
  | nullSlot (index : Nat)
  /-- The derived sum was read before it was fixed. -/
  | sumUnset
deriving DecidableEq

def Fault.message : Fault → String
  | .outOfBounds index len =>
    "index " ++ index.repr ++ " out of bounds for length " ++ len.repr
  | .nullSlot index => "null element at index " ++ index.repr
  | .sumUnset => "derived sum read before the static phase ran"

/-- What does not fail hands its value on. -/
@[simp] theorem Fault.bind_ok {α β : Type} (x : α) (f : α → Except Fault β) :
    (Except.ok x >>= f) = f x := rfl

end StaticInit
