import StaticInit.Evaluation
import StaticInit.Proofs.StaticPhase

/-!
# Runs of an evaluation

An evaluation is either waiting for its first run or settled, and a run of
either leads to the settled one (`run_waiting`, `run_settled`). So no run fails,
the first one alone goes through the static phase, and every report is known in
advance (`Config.report`). `asks_fresh` says so of any number of runs of a fresh
evaluation, of which some are asked for their value only: their answers, and the
evaluation that they leave. What it means for the values and for the phases of
each report comes last.
-/

namespace StaticInit

namespace Program

/-- The accumulator of the base instance at the end of a run. -/
def baseAccumulator : Program → Int32
  | .sum => 1
  | .helloWorld => 0

/-- The stored pattern, read back. -/
def readback? : Program → Option Int32
  | .sum => none
  | .helloWorld => some (-889275714)

/-- The phases that follow the static phase. -/
def closingPhases (result : Int32) : Program → List Phase
  | .sum => [.baseIncremented, .dispatched .derived .base, .reported result]
  | .helloWorld =>
    [.baseIncremented, .baseDecremented, .dispatched .derived .base, .reported result,
      .arraysTouched (-889275714)]

/-- The events that follow the static phase. -/
def closingEvents (input sum : Int32) : Program → List Event
  | .sum => [.dispatched .derived .base, .reported input sum (input + sum)]
  | .helloWorld =>
    [.dispatched .derived .base, .reported input sum (input + sum),
      .arraysTouched (-889275714) 10 10 "Hello, World."]

end Program

namespace Config

/-- The report of a run with this derived sum and these phases before its own. -/
def report (c : Config) (sum : Int32) (opening : List Phase) : Report where
  result := c.input + sum
  derivedSum := sum
  counter := c.finalCounter
  baseAccumulator := c.program.baseAccumulator
  derivedAccumulator := -1
  readback? := c.program.readback?
  phases := opening ++ c.program.closingPhases (c.input + sum)

end Config

namespace Evaluation

/-- Before the first run, with or without a derived sum. -/
def waiting (c : Config) (early : Option Int32) : Evaluation where
  config := c
  statics := { sum? := early }

/-- After a run. -/
def settled (c : Config) (sum : Int32) : Evaluation where
  config := c
  statics := c.settled sum
  staticPhaseDone := true

def fresh (c : Config) : Evaluation := { config := c }

/-! ## One run -/

theorem roundTrip_eq :
    Arrays.roundTrip = .ok (-889275714, .arraysTouched (-889275714) 10 10 "Hello, World.") := rfl

theorem dispatch_eq (mode : Override) :
    dispatch mode = (.derived ⟨mode, ⟨-1⟩⟩,
      ⟨[.dispatched .derived .base], [.dispatched .derived .base]⟩) := rfl

/-- Once the static phase leaves a sum, the rest of a run cannot fail. -/
theorem run_of_opening {e : Evaluation} {sum : Int32}
    (h : (e.opening e.statics).1 = e.config.settled sum) :
    e.run = .ok
      { report := e.config.report sum (e.opening e.statics).2.phases
        events := (e.opening e.statics).2.events ++
          e.config.program.closingEvents e.config.input sum
        evaluation := settled e.config sum } := by
  unfold run
  generalize e.opening e.statics = opened at h ⊢
  obtain ⟨s, trail⟩ := opened
  obtain rfl : s = e.config.settled sum := h
  have hread : (e.config.settled sum).readSum = .ok sum := rfl
  cases hp : e.config.program with
  | sum =>
    simp only [hread, Fault.bind_ok, hp, arrays, dispatch_eq, baseInstance, reporting, settled,
      Config.report, Program.closingPhases, Program.closingEvents, Trail.phases_append,
      Trail.events_append, List.append_assoc]
    rfl
  | helloWorld =>
    simp only [hread, Fault.bind_ok, hp, arrays, roundTrip_eq, dispatch_eq, baseInstance, reporting,
      settled, Config.report, Program.closingPhases, Program.closingEvents, Trail.phases_append,
      Trail.events_append, List.append_assoc]
    rfl

/-- The first run goes through the static phase, and leaves a settled evaluation. -/
theorem run_waiting (c : Config) (early : Option Int32) :
    (waiting c early).run = .ok
      { report := c.report (early.getD c.derivedSum) (c.openingPhases (early.getD c.derivedSum))
        events := (Stage.staticPhase c { sum? := early }).2.events ++
          c.program.closingEvents c.input (early.getD c.derivedSum)
        evaluation := settled c (early.getD c.derivedSum) } := by
  have hopening : (waiting c early).opening (waiting c early).statics =
      Stage.staticPhase c { sum? := early } := rfl
  rw [run_of_opening (hopening ▸ Stage.staticPhase_statics c early), hopening,
    Stage.staticPhase_phases]
  rfl

/-- Every other run finds the evaluation settled, and leaves it so. -/
theorem run_settled (c : Config) (sum : Int32) :
    (settled c sum).run = .ok
      { report := c.report sum []
        events := .staticPhaseSkipped :: c.program.closingEvents c.input sum
        evaluation := settled c sum } :=
  run_of_opening rfl

/-! ## Many runs -/

/-- What a caller takes from a run. -/
inductive Want where
  /-- The reported value alone. -/
  | value
  | report
deriving DecidableEq

inductive Answer where
  | value (n : Int32)
  | report (r : Report)
deriving DecidableEq

/-- The part of a report that was asked for. -/
def Want.answer : Want → Report → Answer
  | .value, r => .value r.result
  | .report, r => .report r

def ask (e : Evaluation) : Want → Except Fault (Answer × Evaluation)
  | .value => e.value.map fun (n, e') => (.value n, e')
  | .report => e.run.map fun r => (.report r.report, r.evaluation)

/-- The answers to several wants in turn, and the evaluation after them; a fault
of any of them is the fault of all. -/
def asks (e : Evaluation) : List Want → Except Fault (List Answer × Evaluation)
  | [] => .ok ([], e)
  | want :: wants => do
    let (answer, e') ← e.ask want
    let (answers, last) ← e'.asks wants
    return (answer :: answers, last)

/-- Either way, what is asked for is a part of the report of one run. -/
theorem ask_of_run {e : Evaluation} {r : Run} (h : e.run = .ok r) (want : Want) :
    e.ask want = .ok (want.answer r.report, r.evaluation) := by
  cases want <;> simp only [ask, value, h] <;> rfl

theorem asks_cons_of_run {e last : Evaluation} {r : Run} {answers : List Answer}
    {wants : List Want} (h : e.run = .ok r) (hs : r.evaluation.asks wants = .ok (answers, last))
    (want : Want) :
    e.asks (want :: wants) = .ok (want.answer r.report :: answers, last) := by
  simp only [asks, ask_of_run h, Fault.bind_ok, hs]
  rfl

theorem asks_settled (c : Config) (sum : Int32) (wants : List Want) :
    (settled c sum).asks wants =
      .ok (wants.map fun want => want.answer (c.report sum []), settled c sum) := by
  induction wants with
  | nil => rfl
  | cons want wants ih => exact asks_cons_of_run (run_settled c sum) ih want

/-- The answers of runs with this derived sum: the first goes through the static
phase, and the others do not. -/
def answersWith (c : Config) (sum : Int32) : List Want → List Answer
  | [] => []
  | want :: wants =>
    want.answer (c.report sum (c.openingPhases sum)) ::
      wants.map fun want => want.answer (c.report sum [])

theorem asks_waiting (c : Config) (early : Option Int32) (want : Want) (wants : List Want) :
    (waiting c early).asks (want :: wants) =
      .ok (answersWith c (early.getD c.derivedSum) (want :: wants),
        settled c (early.getD c.derivedSum)) :=
  asks_cons_of_run (run_waiting c early) (asks_settled c _ wants) want

/-- The evaluation that any number of runs leaves. -/
def afterRuns (c : Config) (wants : List Want) : Evaluation :=
  if wants = [] then fresh c else settled c c.derivedSum

theorem afterRuns_concat (c : Config) (before : List Want) (want : Want) :
    afterRuns c (before ++ [want]) = settled c c.derivedSum :=
  if_neg (List.append_ne_nil_of_right_ne_nil before (List.cons_ne_nil want []))

theorem asks_fresh (c : Config) (wants : List Want) :
    (fresh c).asks wants = .ok (answersWith c c.derivedSum wants, afterRuns c wants) := by
  cases wants with
  | nil => rfl
  | cons want wants => exact asks_waiting c none want wants

theorem run_afterRuns (c : Config) (before : List Want) :
    ∃ events, (afterRuns c before).run = .ok
      { report := c.report c.derivedSum (if before = [] then c.openingPhases c.derivedSum else [])
        events
        evaluation := settled c c.derivedSum } := by
  cases before with
  | nil => exact ⟨_, run_waiting c none⟩
  | cons want before => exact ⟨_, run_settled c c.derivedSum⟩

theorem answersWith_concat (c : Config) (sum : Int32) (before : List Want) (want : Want) :
    answersWith c sum (before ++ [want]) = answersWith c sum before ++
      [want.answer (c.report sum (if before = [] then c.openingPhases sum else []))] := by
  cases before with
  | nil => rfl
  | cons first before => simp [answersWith]

/-! ## What every run does -/

/-- After any sequence of runs, the next one succeeds as well, and what it
reports and leaves behind depends on the configuration alone. -/
theorem run_after_asks (c : Config) (before : List Want) (want : Want) :
    ∃ answers e r, (fresh c).asks before = .ok (answers, e) ∧ e.run = .ok r ∧
      (fresh c).asks (before ++ [want]) =
        .ok (answers ++ [want.answer r.report], r.evaluation) ∧
      r.report.counter = c.finalCounter ∧
      r.report.derivedSum = c.derivedSum ∧
      r.report.result = c.input + c.derivedSum ∧
      r.report.baseAccumulator = c.program.baseAccumulator ∧
      r.report.derivedAccumulator = -1 ∧
      r.report.readback? = c.program.readback? ∧
      r.evaluation.statics =
        { counter := c.finalCounter, seeded := true, sum? := some c.derivedSum } := by
  obtain ⟨events, hr⟩ := run_afterRuns c before
  refine ⟨_, _, _, asks_fresh c before, hr, ?_, rfl, rfl, rfl, rfl, rfl, rfl, rfl⟩
  rw [asks_fresh, answersWith_concat, afterRuns_concat]

theorem arraysTouched_mem_closingPhases {p : Program} {result n : Int32} :
    .arraysTouched n ∈ p.closingPhases result ↔ p.readback? = some n := by
  cases p <;> simp [Program.closingPhases, Program.readback?, eq_comm]

/-- The phases of a run: those of the static phase in the first run only, and
then the same ones in every run. They agree with the rest of the report, and a
sum is always told with the counter that it was derived from. -/
theorem phases_after_asks (c : Config) (before : List Want) :
    ∃ answers e r, (fresh c).asks before = .ok (answers, e) ∧ e.run = .ok r ∧
      r.report.phases =
        (if before = [] then c.openingPhases c.derivedSum else []) ++
          c.program.closingPhases r.report.result ∧
      (∀ n, .arraysTouched n ∈ c.program.closingPhases r.report.result ↔
        r.report.readback? = some n) ∧
      ∀ seed sum, .sumDerived seed sum ∈ c.openingPhases c.derivedSum →
        seed = c.summedCounter ∧ sum = Series.sumFrom seed := by
  obtain ⟨events, hr⟩ := run_afterRuns c before
  refine ⟨_, _, _, asks_fresh c before, hr, rfl, fun n => arraysTouched_mem_closingPhases,
    fun seed sum hmem => ?_⟩
  obtain ⟨rfl, rfl⟩ := Config.sumDerived_mem_openingPhases.mp hmem
  exact ⟨rfl, c.derivedSum_eq_sumFrom⟩

end Evaluation

end StaticInit
