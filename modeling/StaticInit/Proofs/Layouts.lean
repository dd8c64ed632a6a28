import StaticInit.Log
import StaticInit.Report.Layout

/-!
# Records laid out by rule

How a value is written when no more is known of it than names and parts. A record
stands on one line (`Record.onOneLine`), or each of its fields begins a line of its
own, one level below the record (`Record.onLines`). Lists and values that may be
missing stand on lines likewise, and a comma ends every part of what does.

The texts of the library follow these rules, although they are written without
them:

* `Config.text_eq_laidOut`: a configuration, on one line;
* `Phase.lines_eq_laidOut`: a phase, as a part of a list;
* `Report.lines_eq_laidOut`: a report, from its parts.
-/

namespace StaticInit

namespace Record

def onOneLine (name : String) (fields : List (String × String)) : String :=
  name ++ " \x7b " ++ ", ".intercalate (fields.map fun f => f.1 ++ ": " ++ f.2) ++ " \x7d"

/-- The lines of a value that is a part of another: a comma ends the last of them. -/
def part : List String → List String
  | [] => []
  | [line] => [line ++ ","]
  | line :: next :: lines => line :: part (next :: lines)

/-- A value behind the name of its field. -/
def labelled (name : String) : List String → List String
  | [] => []
  | line :: lines => (name ++ ": " ++ line) :: lines

/-- Parts one level below an opening and a closing line. -/
def between (opening : String) (parts : List (List String)) (closing : String) : List String :=
  opening :: ((parts.flatMap part).map ("    " ++ ·) ++ [closing])

/-- A record without fields is its name. -/
def onLines (name : String) : List (String × List String) → List String
  | [] => [name]
  | fields => between (name ++ " \x7b") (fields.map fun f => labelled f.1 f.2) "\x7d"

def list : List (List String) → List String
  | [] => ["[]"]
  | items => between "[" items "]"

/-- A value that may be missing. -/
def option : Option (List String) → List String
  | none => ["None"]
  | some value => between "Some(" [value] ")"

theorem part_concat (lines : List String) (last : String) :
    part (lines ++ [last]) = lines ++ [last ++ ","] := by
  induction lines with
  | nil => rfl
  | cons line lines ih =>
    cases lines with
    | nil => rfl
    | cons next lines => exact congrArg (line :: ·) ih

end Record

open Record

/-! ## Names -/

def Override.title : Override → String
  | .noOp => "NoOp"
  | .chainThrough => "ChainThrough"

def Order.title : Order → String
  | .counterFirst => "CounterFirst"
  | .sumFirst => "SumFirst"

def Program.title : Program → String
  | .sum => "Sum"
  | .helloWorld => "HelloWorld"

def Kind.title : Kind → String
  | .base => "Base"
  | .derived => "Derived"

theorem Override.name_eq_title (m : Override) : m.name = m.title := by cases m <;> rfl

theorem Order.name_eq_title (o : Order) : o.name = o.title := by cases o <;> rfl

theorem Program.name_eq_title (p : Program) : p.name = p.title := by cases p <;> rfl

/-! ## Configurations -/

def Config.laidOut (c : Config) : String :=
  onOneLine "EvalConfig"
    [("counter_seed", c.seed.toInt.repr),
      ("override_mode", c.mode.title),
      ("init_order", c.order.title),
      ("warmup_increments", c.warmups.toNat.repr),
      ("input", c.input.toInt.repr),
      ("program", c.program.title)]

theorem Config.text_eq_laidOut (c : Config) : c.text = c.laidOut := by
  unfold text laidOut Decimal.signed Decimal.unsigned
  simp only [Override.name_eq_title, Order.name_eq_title, Program.name_eq_title]
  -- The values are any texts: to compare numbers would unfold their digits.
  generalize c.seed.toInt.repr = seed, c.warmups.toNat.repr = warmups, c.input.toInt.repr = input,
    c.mode.title = mode, c.order.title = order, c.program.title = program
  rw [← String.toList_inj]
  simp [onOneLine]

/-! ## Reports -/

def Phase.laidOut : Phase → List String
  | .counterInitialized seed => onLines "CounterInitialized" [("seed", [seed.toInt.repr])]
  | .warmupIncrement counter => onLines "WarmupIncrement" [("counter", [counter.toInt.repr])]
  | .warmupSkipped count => onLines "WarmupSkipped" [("count", [count.toNat.repr])]
  | .sumDerived seed sum =>
    onLines "SumDerived" [("seed", [seed.toInt.repr]), ("sum", [sum.toInt.repr])]
  | .baseIncremented => onLines "BaseIncremented" []
  | .baseDecremented => onLines "BaseDecremented" []
  | .dispatched runtime resolved =>
    onLines "Dispatched"
      [("runtime", onLines runtime.title []), ("resolved", onLines resolved.title [])]
  | .reported result => onLines "Reported" [("result", [result.toInt.repr])]
  | .arraysTouched readback => onLines "ArraysTouched" [("readback", [readback.toInt.repr])]

def Report.laidOut (r : Report) : List String :=
  onLines "Report"
    [("result", [r.result.toInt.repr]),
      ("derived_sum", [r.derivedSum.toInt.repr]),
      ("counter", [r.counter.toInt.repr]),
      ("base_accumulator", [r.baseAccumulator.toInt.repr]),
      ("derived_accumulator", [r.derivedAccumulator.toInt.repr]),
      ("array_readback", option (r.readback?.map fun readback => [readback.toInt.repr])),
      ("phases", list (r.phases.map Phase.laidOut))]

theorem Phase.lines_eq_laidOut (p : Phase) : p.lines = part p.laidOut := by
  cases p with
  | dispatched runtime resolved => cases runtime <;> cases resolved <;> rfl
  | _ => rfl

namespace Report

theorem readbackLines_eq (readback? : Option Int32) :
    readbackLines readback? =
      part (labelled "array_readback" (option (readback?.map fun x => [x.toInt.repr]))) := by
  cases readback? <;> rfl

theorem phaseLines_eq (phases : List Phase) :
    phaseLines phases = part (labelled "phases" (list (phases.map Phase.laidOut))) := by
  cases phases with
  | nil => rfl
  | cons p phases =>
    have hitems : ((p :: phases).map Phase.laidOut).flatMap part =
        (p :: phases).flatMap Phase.lines := by
      rw [List.flatMap_map]
      exact congrArg (List.flatMap · (p :: phases)) (funext fun q => q.lines_eq_laidOut.symm)
    have hlist : labelled "phases" (list ((p :: phases).map Phase.laidOut)) =
        ("phases: [" :: Layout.indent ((p :: phases).flatMap Phase.lines)) ++ ["]"] := by
      rw [← hitems]
      rfl
    rw [hlist, part_concat]
    rfl

theorem lines_eq_laidOut (r : Report) : r.lines = r.laidOut := by
  rw [lines, readbackLines_eq, phaseLines_eq]
  simp only [laidOut, onLines, between, List.map_cons, List.map_nil, List.flatMap_cons,
    List.flatMap_nil, List.append_nil]
  rfl

end Report

end StaticInit
