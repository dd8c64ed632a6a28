import StaticInit.Args.Request
import StaticInit.Terminal

/-!
# Problems with arguments

The causes for which a command line is refused, and the line that tells each of
them: as a value (`Problem.message`) and on a stream (`Problem.printed`). Texts
of the user's own are told without their control sequences.
-/

namespace StaticInit.Args

/-- Why a text is not a number of the wanted range. -/
inductive NumberProblem where
  | unreadable (defect : Numeral.Defect)
  | outside (value least greatest : Int)
deriving DecidableEq

inductive Problem where
  /-- An unknown option or flag, or a text where none is expected. -/
  | unexpected (argument : String)
  /-- No value where one is due, or an empty one that is no choice. -/
  | missingValue (o : Opt)
  | notAChoice (o : Opt) (value : String)
  | badNumber (o : Opt) (value : String) (reason : NumberProblem)
  | repeated (n : Named)
  /-- A value attached to a flag. -/
  | unneededValue (f : Flag) (value : String)
deriving DecidableEq

def NumberProblem.message : NumberProblem → String
  | .unreadable defect => defect.message
  | .outside value least greatest =>
    value.repr ++ " is not in " ++ least.repr ++ "..=" ++ greatest.repr

namespace Problem

/-- The whole text, in which `clean` takes the control sequences out of the user's own texts. -/
def text (clean : String → String) : Problem → String
  | .unexpected argument => "error: unexpected argument '" ++ clean argument ++ "' found"
  | .missingValue o => "error: a value is required for '" ++ o.shown ++ "' but none was supplied"
  | .notAChoice o value =>
    "error: invalid value '" ++ clean value ++ "' for '" ++ o.shown ++ "'"
  | .badNumber o value reason =>
    "error: invalid value '" ++ clean value ++ "' for '" ++ o.shown ++ "': " ++ reason.message
  | .repeated n => "error: the argument '" ++ n.shown ++ "' cannot be used multiple times"
  | .unneededValue f value =>
    "error: unexpected value '" ++ clean value ++ "' for '" ++ f.shown ++
      "' found; no more were expected"

/-- The text up to the first line break, which an argument in it may bring along. -/
def line (clean : String → String) (p : Problem) : String :=
  String.ofList (Terminal.firstLine (p.text clean).toList)

/-- The line that is kept with the refusal. -/
def message (p : Problem) : String := p.line Terminal.plain

/-- The line that is printed before the program ends. -/
def printed (p : Problem) : String := p.line Terminal.printed

end Problem

end StaticInit.Args
