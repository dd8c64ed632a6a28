import Mathlib.Data.List.Basic
import StaticInit.CommandLine
import StaticInit.Proofs.Runs

/-!
# The whole log of a run

What a run of a configuration tells at the lowest level, in closed form
(`Config.log`), and with it everything that the program prints for an invocation:
the report is that of a first run, the log is the part of the whole log that the
threshold admits, and there is no failure.

* `Threshold.ofText?_word`, `CommandLine.threshold_of_text`: thresholds by name;
* `Evaluation.run_fresh`: the report and the events of a first run;
* `CommandLine.run_of_accepted`: what is printed where the arguments are accepted.
-/

namespace StaticInit

namespace Config

/-- The events of the static phase. -/
def openingEvents (c : Config) : List Event :=
  .staticPhase c.order :: match c.order with
  | .counterFirst =>
    .counterSeeded c.seed ::
      (if 0 < c.warmups then [.warmupsDone c.warmups c.finalCounter] else []) ++
      [.sumFixed c.finalCounter c.derivedSum]
  | .sumFirst =>
    [.sumFixed 0 c.derivedSum, .counterSeeded c.seed] ++
      if 0 < c.warmups then [.warmupsSkipped c.warmups] else []

/-- Everything that is told of a run, of whatever level. -/
def log (c : Config) : List Event :=
  .started c :: (c.openingEvents ++ c.program.closingEvents c.input c.derivedSum)

/-- The report of the first run. -/
def firstReport (c : Config) : Report := c.report c.derivedSum (c.openingPhases c.derivedSum)

end Config

namespace Stage

theorem events_warmUp (mode : Override) (count : UInt32) (s : Statics) :
    (warmUp mode count s).2.events =
      if 0 < count then [.warmupsDone count (s.counter + mode.moved count.toNat)] else [] := by
  unfold warmUp
  split
  · next h => simp [h]
  · next h => simp [Derived.repeatIncr_eq, UInt32.pos_iff_ne_zero.mpr h]

theorem events_skipWarmups (count : UInt32) (s : Statics) :
    (skipWarmups count s).2.events = if 0 < count then [.warmupsSkipped count] else [] := by
  unfold skipWarmups
  split
  · next h => simp [h]
  · next h => rw [if_pos (UInt32.pos_iff_ne_zero.mpr h)]

theorem staticPhase_events (c : Config) : (staticPhase c {}).2.events = c.openingEvents := by
  cases ho : c.order with
  | counterFirst =>
    simp only [staticPhase, inOrder, ho, andThen, fixSum, seedCounter_unseeded, statics_warmUp,
      events_warmUp, Trail.events_append, Statics.fixSum_eq, Config.openingEvents,
      Config.derivedSum, Config.finalCounter_counterFirst ho, List.cons_append, List.nil_append,
      Option.isNone_none, if_true, Option.getD_none]
  | sumFirst =>
    simp only [staticPhase, inOrder, ho, andThen, fixSum, seedCounter_unseeded,
      events_skipWarmups, Trail.events_append, Statics.fixSum_eq, Config.openingEvents,
      Config.derivedSum, Int32.zero_add, List.cons_append, List.nil_append, Option.isNone_none,
      if_true, Option.getD_none]

end Stage

/-! ## Thresholds -/

/-- The name that a level is set by. -/
def Level.word : Level → String
  | .trace => "trace"
  | .debug => "debug"
  | .info => "info"
  | .warn => "warn"
  | .error => "error"

namespace Threshold

theorem ofText?_word (l : Level) : ofText? l.word = some (.least l) := by
  cases l <;> decide +kernel

theorem ofText?_empty : ofText? "" = some (.least .error) := by decide +kernel

theorem ofText?_off : ofText? "off" = some .silent := by decide +kernel

/-- At the lowest level nothing is left out. -/
theorem lines_trace (events : List Event) :
    (Threshold.least .trace).lines events = events.map Event.line := by
  have hall : ∀ e ∈ events, (Threshold.least .trace).admits e.level = true := fun e _ =>
    decide_eq_true (Nat.zero_le e.level.rank)
  rw [lines, List.filter_eq_self.mpr hall]

end Threshold

/-- A threshold that is set by name goes before the verbosity. -/
theorem CommandLine.threshold_of_text {text : String} {t : Threshold}
    (ht : Threshold.ofText? text = some t) (verbosity : Nat) :
    threshold (some text) verbosity = t := by
  rw [threshold, Option.bind_some, ht, Option.getD_some]

/-! ## Runs -/

theorem Evaluation.run_fresh (c : Config) :
    ∃ r, (fresh c).run = .ok r ∧ r.report = c.firstReport ∧ .started c :: r.events = c.log := by
  refine ⟨_, run_waiting c none, rfl, ?_⟩
  show .started c :: ((Stage.staticPhase c {}).2.events ++ _) = _
  rw [Stage.staticPhase_events]
  rfl

/-- What the program prints where the arguments are accepted. -/
theorem CommandLine.run_of_accepted {arguments : List String} {i : Args.Invocation}
    (hi : Args.Invocation.ofArguments arguments = .ok i) (level? : Option String) :
    run level? arguments =
      { exit := 0
        stdout := Decimal.signed i.config.firstReport.result ++ "\n"
        stderr := (threshold level? i.verbosity).lines i.config.log ++
          if i.report then i.config.firstReport.lines else [] } := by
  obtain ⟨r, hr, hreport, hlog⟩ := Evaluation.run_fresh i.config
  have hfresh : Evaluation.run { config := i.config } = .ok r := hr
  simp only [run, hi, evaluate, hfresh, hreport, hlog]

end StaticInit
