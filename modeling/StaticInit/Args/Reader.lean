import StaticInit.Args.Item

/-!
# Reading arguments

The arguments are read from left to right into a list of requests (`read`), and
the first problem, or the first plea for help, ends the reading. The value of an
option is attached with `=` or is the next argument; no option or flag may be
given twice except `-v`. A value that is an argument of its own is judged only
with a view to what follows it (`outstanding`).
-/

namespace StaticInit.Args

/-- Why the reading ends before the arguments do. -/
inductive Stop where
  | help
  | refused (p : Problem)
deriving DecidableEq

/-- Whether one of the requests was made with this option or flag. -/
def requested (seen : List Request) (n : Named) : Bool := seen.any fun r => r.named = n

/-- The request that a value of an option makes. -/
def Opt.request (o : Opt) (value : String) : Except Problem Request :=
  match o.form with
  | .words choices =>
    match choices.lookup value with
    | some r => .ok r
    | none => .error (if value = "" then .missingValue o else .notAChoice o value)
  | .integer least greatest request =>
    match Numeral.read value.toList with
    | .error defect => .error (.badNumber o value (.unreadable defect))
    | .ok n =>
      if least ≤ n ∧ n ≤ greatest then .ok (request n)
      else .error (.badNumber o value (.outside n least greatest))

/-- An option with its value. That the option is new is checked before the value is looked at. -/
def readValue (seen : List Request) (o : Opt) (value : String) : Except Problem (List Request) :=
  if requested seen (.opt o) then .error (.repeated (.opt o))
  else match o.request value with
    | .ok r => .ok (seen ++ [r])
    | .error p => .error p

def readFlag (seen : List Request) : Flag → Except Stop (List Request)
  | .report =>
    if requested seen (.flag .report) then .error (.refused (.repeated (.flag .report)))
    else .ok (seen ++ [.report])
  | .verbose => .ok (seen ++ [.verbose])
  | .help => .error .help

/-- Short flags one by one, up to the first that is unknown. -/
def readCluster : List Request → List Char → Except Stop (List Request)
  | seen, [] => .ok seen
  | seen, c :: cs =>
    match Flag.ofShort? c with
    | none => .error (.refused (.unexpected (String.ofList ['-', c])))
    | some f =>
      match readFlag seen f with
      | .ok seen' => readCluster seen' cs
      | .error stop => .error stop

/-- Whether an argument that follows an option is its value: all plain texts are, and for some
options a negative number is. -/
def Opt.takes (o : Opt) (argument : String) : Bool :=
  Word.ofText argument = .plain || (o.acceptsNegative && isNegativeNumber argument.toList)

/-- Reads on after the requests in `seen`. -/
def readAfter : List Request → List String → Except Stop (List Request)
  | seen, [] => .ok seen
  | seen, argument :: rest =>
    match Item.ofArgument argument rest with
    | .refused p => .error (.refused p)
    | .close => .ok seen
    | .cluster cs =>
      match readCluster seen cs with
      | .ok seen' => readAfter seen' rest
      | .error stop => .error stop
    | .flag f =>
      match readFlag seen f with
      | .ok seen' => readAfter seen' rest
      | .error stop => .error stop
    | .attached o value =>
      match readValue seen o value with
      | .ok seen' => readAfter seen' rest
      | .error p => .error (.refused p)
    | .awaiting o =>
      match rest with
      | [] => .error (.refused (.missingValue o))
      | value :: rest' =>
        if o.takes value then
          match readValue seen o value with
          | .ok seen' => readAfter seen' rest'
          | .error p => .error (.refused (outstanding p rest'))
        else .error (.refused (outstanding (.missingValue o) (value :: rest')))

/-- The requests that the arguments make, in their order. -/
def read (arguments : List String) : Except Stop (List Request) := readAfter [] arguments

end StaticInit.Args
