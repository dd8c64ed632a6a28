import StaticInit.Args.Help
import StaticInit.Args.Invocation
import StaticInit.Evaluation
import StaticInit.Report.Layout

/-!
# The command line

From the arguments to what the program prints (`CommandLine.run`). Arguments are
refused with exit code 2 and one line; help and results go to the standard
output; the log, and after it the report where it is wanted, go to the standard
error. What is logged never changes the result.
-/

namespace StaticInit.CommandLine

/-- What is left when the program has ended. -/
structure Outcome where
  exit : Nat
  stdout : String
  /-- The lines of the standard error. -/
  stderr : List String
deriving DecidableEq

/-- The threshold of the log: a level that is set by name goes before the verbosity. Any other text
counts as none, even where it is a filter in a spelling that `Threshold.ofText?` does not cover. -/
def threshold (level? : Option String) (verbosity : Nat) : Threshold :=
  (level?.bind Threshold.ofText?).getD (.ofVerbosity verbosity)

/-- Runs an evaluation once for an invocation. -/
def evaluate (level? : Option String) (invocation : Args.Invocation) : Outcome :=
  let shown := threshold level? invocation.verbosity
  let started := Event.started invocation.config
  match Evaluation.run { config := invocation.config } with
  | .ok r =>
    { exit := 0
      stdout := Decimal.signed r.report.result ++ "\n"
      stderr := shown.lines (started :: r.events) ++
        if invocation.report then r.report.lines else [] }
  | .error f =>
    { exit := 1, stdout := "", stderr := shown.lines [started] ++ ["Error: " ++ f.message] }

/-- What the program does with its arguments, and a level of the log if one is set by name. -/
def run (level? : Option String) (arguments : List String) : Outcome :=
  match Args.Invocation.ofArguments arguments with
  | .ok invocation => evaluate level? invocation
  | .error .help => { exit := 0, stdout := Args.Help.text, stderr := [] }
  | .error (.refused p) => { exit := 2, stdout := "", stderr := [p.printed] }

end StaticInit.CommandLine
