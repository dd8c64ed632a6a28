import StaticInit.Script.Object

/-!
# Steps of a script

A step names an object and says what to do with it. Most steps are an
operation on that object alone; a few read a second object or, for the
overriding `incr`, change it too. `Step.names` lists every name a step mentions.
-/

namespace StaticInit.Script

/-- What a new object is to be. -/
inductive Shape where
  | statics
  | base
  | derived (mode : Override)
  | ints (len : Nat)
  | rows (len : Nat)
  | strings (len : Nat)
  | evaluation (config : Config)
deriving DecidableEq

namespace Shape

/-- No array of a script is longer. -/
def maxLen : Nat := 100000

/-- The object as it is at the start, unless it would be too long. -/
def fresh? : Shape → Option Object
  | .statics => some (.statics .fresh)
  | .base => some (.base {})
  | .derived mode => some (.derived { mode })
  | .ints len => if len ≤ maxLen then some (.ints (.zeros len)) else none
  | .rows len => if len ≤ maxLen then some (.rows (.nulls len)) else none
  | .strings len => if len ≤ maxLen then some (.strings (.nulls len)) else none
  | .evaluation config => some (.evaluation { config })

end Shape

/-- A value to be stored in an array. -/
inductive Datum where
  | number (n : Int32)
  | text (t : String)
deriving DecidableEq

/-- What can be done with one object alone. -/
inductive Operation where
  | seedCounter (seed : Int32)
  | fixSum
  | readSum
  | counter
  | decr
  /-- Turns an instance into a handle. -/
  | box
  | store (index : Nat) (value : Datum)
  | storePattern (index : Nat) (bits : UInt32)
  | load (index : Nat)
  /-- A slot of a row in a slot. -/
  | loadRow (index column : Nat)
  | get (index : Nat)
  | isNull (index : Nat)
  | isEmpty
  /-- A run of an evaluation, for its value alone. -/
  | value
  | run
deriving DecidableEq

inductive Action where
  | new (shape : Shape)
  /-- Becomes a copy of another object. -/
  | clone (source : String)
  | eq (other : String)
  | view
  /-- `incr`; that of a derived instance needs the name of a static state. -/
  | incr (statics? : Option String)
  /-- Stores a copy of an array of integers in an array of rows. -/
  | storeRow (index : Nat) (row : String)
  | operate (op : Operation)
deriving DecidableEq

structure Step where
  id : String
  action : Action
deriving DecidableEq

/-- Every name the step mentions. -/
def Step.names (step : Step) : List String :=
  step.id :: match step.action with
    | .clone source => [source]
    | .eq other => [other]
    | .incr statics? => statics?.toList
    | .storeRow _ row => [row]
    | .new _ | .view | .operate _ => []

/-- What a step gives back. -/
inductive Result where
  | nothing
  | flag (b : Bool)
  | number (n : Int32)
  | kind (k : Kind)
  | text (t : String)
  /-- The part of a row that is shown. -/
  | row (values : List Int32)
  /-- The counter after an `incr`. -/
  | counter (n : Int32)
  | report (r : Report)
  | fault (f : Fault)
deriving DecidableEq

end StaticInit.Script
