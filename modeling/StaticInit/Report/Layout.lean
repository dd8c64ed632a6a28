import StaticInit.Decimal
import StaticInit.Report

/-!
# The layout of a report

A report as lines of text (`Report.lines`): one field a line, four spaces a
level, a comma after every field and item, and the name of a variant before its
fields. A phase without fields takes one line, any other phase one line more
than its fields on each side.
-/

namespace StaticInit

namespace Layout

def indent (lines : List String) : List String := lines.map ("    " ++ ·)

/-- A field or item on one line. -/
def field (name value : String) : String := name ++ ": " ++ value ++ ","

/-- Lines that stand one level below an opening and a closing line. -/
def block (opening : String) (body : List String) (closing : String) : List String :=
  opening :: (indent body ++ [closing])

end Layout

/-- The name of a type as a variant. -/
def Kind.variant : Kind → String
  | .base => "Base"
  | .derived => "Derived"

open Layout

/-- A phase as an item of a list. -/
def Phase.lines : Phase → List String
  | .counterInitialized seed =>
    block "CounterInitialized \x7b" [field "seed" (Decimal.signed seed)] "\x7d,"
  | .warmupIncrement counter =>
    block "WarmupIncrement \x7b" [field "counter" (Decimal.signed counter)] "\x7d,"
  | .warmupSkipped count =>
    block "WarmupSkipped \x7b" [field "count" (Decimal.unsigned count)] "\x7d,"
  | .sumDerived seed sum =>
    block "SumDerived \x7b"
      [field "seed" (Decimal.signed seed), field "sum" (Decimal.signed sum)] "\x7d,"
  | .baseIncremented => ["BaseIncremented,"]
  | .baseDecremented => ["BaseDecremented,"]
  | .dispatched runtime resolved =>
    block "Dispatched \x7b"
      [field "runtime" runtime.variant, field "resolved" resolved.variant] "\x7d,"
  | .reported result => block "Reported \x7b" [field "result" (Decimal.signed result)] "\x7d,"
  | .arraysTouched readback =>
    block "ArraysTouched \x7b" [field "readback" (Decimal.signed readback)] "\x7d,"

namespace Report

def readbackLines : Option Int32 → List String
  | none => [field "array_readback" "None"]
  | some readback => block "array_readback: Some(" [Decimal.signed readback ++ ","] "),"

/-- A list without items stays on one line. -/
def phaseLines : List Phase → List String
  | [] => [field "phases" "[]"]
  | phases => block "phases: [" (phases.flatMap Phase.lines) "],"

def lines (r : Report) : List String :=
  block "Report \x7b"
    ([field "result" (Decimal.signed r.result),
      field "derived_sum" (Decimal.signed r.derivedSum),
      field "counter" (Decimal.signed r.counter),
      field "base_accumulator" (Decimal.signed r.baseAccumulator),
      field "derived_accumulator" (Decimal.signed r.derivedAccumulator)] ++
      readbackLines r.readback? ++ phaseLines r.phases) "\x7d"

end Report

end StaticInit
