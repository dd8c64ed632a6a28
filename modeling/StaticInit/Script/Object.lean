import StaticInit.Evaluation

/-!
# Objects of a script

The values that a script keeps under names, what of each an answer shows
(`Object.view`), which of them can be copied, and when two of them are equal
(`Object.same?`). Only two objects of one kind can be compared.
-/

namespace StaticInit.Script

inductive Object where
  | statics (s : Statics)
  | base (b : Base)
  | derived (d : Derived)
  | handle (h : Handle)
  | ints (a : Ints)
  | rows (a : Refs Ints)
  | strings (a : Refs String)
  | evaluation (e : Evaluation)
deriving DecidableEq

/-- What an answer shows of an object. -/
inductive View where
  | statics (s : Statics)
  | plain (kind : Kind) (accumulator : Int32)
  | derived (accumulator : Int32) (mode : Override)
  | ints (len : Nat) (slots : List Int32)
  | rows (len occupied : Nat) (slots : List (Option (List Int32)))
  | strings (len occupied : Nat) (slots : List (Option String))
  | evaluation (config : Config) (statics : Statics)
deriving DecidableEq

/-- The number of slots that are shown of an array, from the first on. -/
def shownSlots : Nat := 32

/-- The slots that are shown. -/
def shown {α : Type} (slots : Array α) : List α := (slots.take shownSlots).toList

namespace Object

def view : Object → View
  | .statics s => .statics s
  | .base b => .plain .base b.accumulator
  | .derived d => .derived d.accumulator d.mode
  | .handle h => .plain h.kind h.accumulator
  | .ints a => .ints a.len (shown a.slots)
  | .rows a => .rows a.len a.occupied ((shown a.slots).map (·.map fun row => shown row.slots))
  | .strings a => .strings a.len a.occupied (shown a.slots)
  | .evaluation e => .evaluation e.config e.statics

/-- Instances and arrays can be copied; a state, a handle or an evaluation cannot. -/
def copyable : Object → Bool
  | .base _ | .derived _ | .ints _ | .rows _ | .strings _ => true
  | .statics _ | .handle _ | .evaluation _ => false

/-- Equality of two objects of one kind; evaluations are compared by their configurations. -/
def same? : Object → Object → Option Bool
  | .base a, .base b => some (a = b)
  | .derived a, .derived b => some (a = b)
  | .ints a, .ints b => some (a = b)
  | .rows a, .rows b => some (a = b)
  | .strings a, .strings b => some (a = b)
  | .evaluation a, .evaluation b => some (a.config = b.config)
  | _, _ => none

end Object

end StaticInit.Script
