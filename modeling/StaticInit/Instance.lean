import StaticInit.Config
import StaticInit.Statics

/-!
# Instances and dispatch

A base instance counts its own `incr` and `decr` in an accumulator. A derived
instance holds a base part and overrides `incr` only, so its `decr` is that of
the base part. A handle hides which of the two it holds and offers `decr` alone:
`kind` is the type the instance was created with, while `decr` names the type
whose code ran.
-/

namespace StaticInit

/-- The types that take part in dispatch. -/
inductive Kind where
  | base
  | derived
deriving DecidableEq

def Kind.name : Kind → String
  | .base => "base"
  | .derived => "derived"

structure Base where
  accumulator : Int32 := 0
deriving DecidableEq

namespace Base

def incr (b : Base) : Base := ⟨b.accumulator + 1⟩

def decr (b : Base) : Kind × Base := (.base, ⟨b.accumulator - 1⟩)

@[simp] theorem accumulator_incr (b : Base) : b.incr.accumulator = b.accumulator + 1 := rfl
@[simp] theorem accumulator_decr (b : Base) : b.decr.2.accumulator = b.accumulator - 1 := rfl
@[simp] theorem kind_decr (b : Base) : b.decr.1 = .base := rfl

end Base

structure Derived where
  mode : Override
  /-- The inherited part, which holds the accumulator. -/
  base : Base := {}
deriving DecidableEq

namespace Derived

def accumulator (d : Derived) : Int32 := d.base.accumulator

/-- The overriding `incr`. -/
def incr (d : Derived) (s : Statics) : Derived × Statics :=
  match d.mode with
  | .noOp => (d, s)
  | .chainThrough => ({ d with base := d.base.incr }, s.bump)

/-- The inherited `decr`. -/
def decr (d : Derived) : Kind × Derived :=
  (d.base.decr.1, { d with base := d.base.decr.2 })

@[simp] theorem mode_incr (d : Derived) (s : Statics) : (d.incr s).1.mode = d.mode := by
  unfold incr; split <;> rfl

@[simp] theorem mode_decr (d : Derived) : d.decr.2.mode = d.mode := rfl
@[simp] theorem kind_decr (d : Derived) : d.decr.1 = .base := rfl
@[simp] theorem accumulator_decr (d : Derived) : d.decr.2.accumulator = d.accumulator - 1 := rfl

end Derived

/-- An instance behind the `decr` capability. -/
inductive Handle where
  | base (b : Base)
  | derived (d : Derived)
deriving DecidableEq

namespace Handle

/-- The type the instance was created with. -/
def kind : Handle → Kind
  | .base _ => .base
  | .derived _ => .derived

def accumulator : Handle → Int32
  | .base b => b.accumulator
  | .derived d => d.accumulator

/-- `decr` of the instance inside. -/
def decr : Handle → Kind × Handle
  | .base b => (b.decr.1, .base b.decr.2)
  | .derived d => (d.decr.1, .derived d.decr.2)

@[simp] theorem kind_decr (h : Handle) : h.decr.2.kind = h.kind := by cases h <;> rfl

/-- Whatever the handle holds, the base implementation runs. -/
@[simp] theorem resolved_decr (h : Handle) : h.decr.1 = .base := by cases h <;> rfl

@[simp] theorem accumulator_decr (h : Handle) : h.decr.2.accumulator = h.accumulator - 1 := by
  cases h <;> rfl

end Handle

end StaticInit
