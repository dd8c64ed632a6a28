import StaticInit.Series

/-!
# Configurations

What an evaluation is asked to do. A configuration starts from a preset and
takes settings one after another (`Config.build`); a setting writes one field,
so the last setting of a field decides it.
-/

namespace StaticInit

/-- What the subclass does in its own `incr`. -/
inductive Override where
  /-- Nothing at all. -/
  | noOp
  /-- The base `incr`, and one more on the counter. -/
  | chainThrough
deriving DecidableEq, Inhabited

/-- Which of the two initializers runs first. -/
inductive Order where
  | counterFirst
  /-- The derived sum is fixed while the counter still reads 0. -/
  | sumFirst
deriving DecidableEq, Inhabited

/-- The two demonstration programs. -/
inductive Program where
  | sum
  /-- As `sum`, with a `decr` on the base instance and a pass over arrays. -/
  | helloWorld
deriving DecidableEq, Inhabited

def Override.name : Override → String
  | .noOp => "NoOp"
  | .chainThrough => "ChainThrough"

def Order.name : Order → String
  | .counterFirst => "CounterFirst"
  | .sumFirst => "SumFirst"

def Program.name : Program → String
  | .sum => "Sum"
  | .helloWorld => "HelloWorld"

structure Config where
  /-- What the counter is seeded with. -/
  seed : Int32 := standardSeed
  mode : Override := .noOp
  order : Order := .counterFirst
  /-- How often the subclass `incr` runs before the derived sum is fixed. -/
  warmups : UInt32 := 0
  /-- The first argument of `say`. -/
  input : Int32 := 1
  program : Program := .sum
deriving DecidableEq

/-- The configurations to start from. -/
inductive Preset where
  | standard
  | sum
  | helloWorld
deriving DecidableEq

/-- Only the second program differs from the standard: its override chains through. -/
def Preset.config : Preset → Config
  | .standard => {}
  | .sum => {}
  | .helloWorld => { mode := .chainThrough, program := .helloWorld }

def Program.preset : Program → Preset
  | .sum => .sum
  | .helloWorld => .helloWorld

/-- A new value for one field. -/
inductive Setting where
  | seed (value : Int32)
  | mode (value : Override)
  | order (value : Order)
  | warmups (value : UInt32)
  | input (value : Int32)
  | program (value : Program)
deriving DecidableEq

def Config.set (c : Config) : Setting → Config
  | .seed value => { c with seed := value }
  | .mode value => { c with mode := value }
  | .order value => { c with order := value }
  | .warmups value => { c with warmups := value }
  | .input value => { c with input := value }
  | .program value => { c with program := value }

/-- The preset with the settings made in turn. -/
def Config.build (preset : Preset) (settings : List Setting) : Config :=
  settings.foldl Config.set preset.config

end StaticInit
