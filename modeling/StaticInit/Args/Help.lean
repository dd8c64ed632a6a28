import StaticInit.Args.Request

/-!
# The help text

One line for each option and flag, made from their tables: the spelling in a
column of fixed width, what it is for, its default, and its possible values.
-/

namespace StaticInit.Args.Help

/-- What the program is for. -/
def about : String := "Run the counter-and-dispatch evaluation and print the result"

/-- Where the descriptions begin. -/
def column : Nat := 39

def optAbout : Opt → String
  | .program => "Which demonstration program to run"
  | .overrideMode => "Subclass `incr` behavior (defaults to the program's own)"
  | .order => "Which type initializer runs first"
  | .seed => "Counter seed"
  | .input => "First argument to `say`"
  | .warmup => "Subclass `incr` calls before the derived sum is computed"

/-- The value that stands for an option left out, where that does not depend on another. -/
def optDefault? : Opt → Option String
  | .program => some "sum"
  | .order => some "counter-first"
  | .warmup => some "0"
  | .overrideMode | .seed | .input => none

def flagAbout : Flag → String
  | .report => "Print the full report to stderr"
  | .verbose => "Increase log verbosity (-v debug, -vv trace)"
  | .help => "Print help"

/-- A spelling, after its short form if it has one, and a description in its column. -/
def line (short? : Option Char) (shown description : String) : String :=
  let spelling := match short? with
    | some c => "  -" ++ String.ofList [c] ++ ", " ++ shown
    | none => "      " ++ shown
  spelling ++ String.ofList (List.replicate (column - spelling.length) ' ') ++ description

def optLine (o : Opt) : String :=
  line none o.shown <| optAbout o ++
    (match optDefault? o with
      | some value => " [default: " ++ value ++ "]"
      | none => "") ++
    (match o.form with
      | .words choices =>
        " [possible values: " ++ ", ".intercalate (choices.map Prod.fst) ++ "]"
      | .integer _ _ _ => "")

def flagLine (f : Flag) : String := line f.short? f.shown (flagAbout f)

def lines : List String :=
  [about, "", "Usage: clinit-eval [OPTIONS]", "", "Options:"] ++
    Opt.all.map optLine ++ Flag.all.map flagLine

/-- The whole text, each line ended. -/
def text : String := String.join (lines.map (· ++ "\n"))

end StaticInit.Args.Help
