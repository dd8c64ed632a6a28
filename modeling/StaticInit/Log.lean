import StaticInit.Decimal
import StaticInit.Instance

/-!
# The event log

What an evaluation tells about itself while it goes on, as values first
(`Event`) and as lines of text second (`Event.line`). A threshold admits the
events at or above one level, or none at all.
-/

namespace StaticInit

/-- How much an event matters, from the least up. -/
inductive Level where
  | trace
  | debug
  | info
  | warn
  | error
deriving DecidableEq

namespace Level

def rank : Level → Nat
  | .trace => 0
  | .debug => 1
  | .info => 2
  | .warn => 3
  | .error => 4

def name : Level → String
  | .trace => "TRACE"
  | .debug => "DEBUG"
  | .info => "INFO"
  | .warn => "WARN"
  | .error => "ERROR"

end Level

inductive Threshold where
  /-- Nothing is shown. -/
  | silent
  /-- This level and all above it are shown. -/
  | least (level : Level)
deriving DecidableEq

namespace Threshold

def admits : Threshold → Level → Bool
  | .silent, _ => false
  | .least lowest, level => lowest.rank ≤ level.rank

/-- A threshold by its name, in any case; the empty text stands for errors only. No more than these
names is covered: a filter in another spelling, such as a digit for a level or a level for one part
of the program, is not read here. -/
def ofText? (text : String) : Option Threshold :=
  match text.toLower with
  | "" => some (.least .error)
  | "off" => some .silent
  | "error" => some (.least .error)
  | "warn" => some (.least .warn)
  | "info" => some (.least .info)
  | "debug" => some (.least .debug)
  | "trace" => some (.least .trace)
  | _ => none

/-- Warnings by default, and more for each step of verbosity. -/
def ofVerbosity : Nat → Threshold
  | 0 => .least .warn
  | 1 => .least .debug
  | _ => .least .trace

end Threshold

inductive Event where
  | started (config : Config)
  | staticPhase (order : Order)
  | staticPhaseSkipped
  | counterSeeded (seed : Int32)
  | counterKept
  | sumFixed (seed sum : Int32)
  | warmupsDone (count : UInt32) (counter : Int32)
  | warmupsSkipped (count : UInt32)
  | dispatched (runtime resolved : Kind)
  | reported (input sum result : Int32)
  | arraysTouched (readback : Int32) (rows strings : Nat) (greeting : String)
deriving DecidableEq

namespace Event

def level : Event → Level
  | .started _ => .debug
  | .staticPhase _ => .debug
  | .staticPhaseSkipped => .trace
  | .counterSeeded _ => .trace
  | .counterKept => .trace
  | .sumFixed _ _ => .trace
  | .warmupsDone _ _ => .trace
  | .warmupsSkipped _ => .warn
  | .dispatched _ _ => .debug
  | .reported _ _ _ => .debug
  | .arraysTouched _ _ _ _ => .trace

end Event

/-- A configuration on one line, its fields by their long names. -/
def Config.text (c : Config) : String :=
  "EvalConfig \x7b counter_seed: " ++ Decimal.signed c.seed ++
    ", override_mode: " ++ c.mode.name ++
    ", init_order: " ++ c.order.name ++
    ", warmup_increments: " ++ Decimal.unsigned c.warmups ++
    ", input: " ++ Decimal.signed c.input ++
    ", program: " ++ c.program.name ++ " \x7d"

namespace Event

/-- The message, then the values by name. -/
def text : Event → String
  | .started config => "starting evaluation config=" ++ config.text
  | .staticPhase order => "static phase order=" ++ order.name
  | .staticPhaseSkipped => "static phase already ran"
  | .counterSeeded seed => "initializing counter owner seed=" ++ Decimal.signed seed
  | .counterKept => "counter owner already initialized"
  | .sumFixed seed sum =>
    "initializing derived sum seed=" ++ Decimal.signed seed ++ " sum=" ++ Decimal.signed sum
  | .warmupsDone count counter =>
    "warmup increments done count=" ++ Decimal.unsigned count ++
      " counter=" ++ Decimal.signed counter
  | .warmupsSkipped count =>
    "warmup increments skipped: derived sum fixed before any instance exists count=" ++
      Decimal.unsigned count
  | .dispatched runtime resolved =>
    "dispatched decr runtime=\"" ++ runtime.name ++ "\" resolved=\"" ++ resolved.name ++ "\""
  | .reported input sum result =>
    "reported input=" ++ Decimal.signed input ++ " sum=" ++ Decimal.signed sum ++
      " result=" ++ Decimal.signed result
  | .arraysTouched readback rows strings greeting =>
    "arrays touched tmp=" ++ Decimal.signed readback ++ " rows=" ++ rows.repr ++
      " strings=" ++ strings.repr ++ " greeting=\"" ++ greeting ++ "\""

def line (e : Event) : String := e.level.name ++ " " ++ e.text

end Event

/-- The lines of the events that the threshold admits, in their order. -/
def Threshold.lines (t : Threshold) (events : List Event) : List String :=
  (events.filter (fun e => t.admits e.level)).map Event.line

end StaticInit
