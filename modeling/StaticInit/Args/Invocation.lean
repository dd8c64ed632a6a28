import StaticInit.Args.Reader

/-!
# Invocations

What the requests of a command line come to: a configuration, whether the
report is wanted, and how much of the log. The configuration is the preset of
the program asked for, with the other requests set in turn; since no option is
given twice, their order does not matter.
-/

namespace StaticInit.Args

structure Invocation where
  config : Config
  report : Bool
  /-- How often more of the log was asked for, up to a limit. -/
  verbosity : Nat
deriving DecidableEq

namespace Request

def program? : Request → Option Program
  | .program p => some p
  | _ => none

/-- The setting that a request changes after the preset is chosen. -/
def setting? : Request → Option Setting
  | .overrideMode m => some (.mode m)
  | .order o => some (.order o)
  | .seed n => some (.seed n)
  | .input n => some (.input n)
  | .warmup n => some (.warmups n)
  | .program _ | .report | .verbose => none

end Request

namespace Invocation

/-- The verbosity counts no further. -/
def maxVerbosity : Nat := 255

/-- The program asked for, or the first one. -/
def program (requests : List Request) : Program :=
  (requests.findSome? Request.program?).getD .sum

def ofRequests (requests : List Request) : Invocation where
  config := Config.build (program requests).preset (requests.filterMap Request.setting?)
  report := requested requests (.flag .report)
  verbosity := min (requests.count .verbose) maxVerbosity

/-- The invocation that the arguments spell. -/
def ofArguments (arguments : List String) : Except Stop Invocation :=
  (read arguments).map ofRequests

end Invocation

end StaticInit.Args
