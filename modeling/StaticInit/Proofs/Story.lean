import Mathlib.Data.List.SplitBy
import StaticInit.Proofs.FullLog
import StaticInit.Proofs.Layouts

/-!
# The log and the report

A run is recorded twice, in the phases of its report and in the lines of its log.
The lines can be told from the phases alone (`Phase.story`): each phase stands for
one line or for none, but for the warmups, where a whole block of them stands for
one line with their number and the last counter. What is told is written out here,
level and text (`Entry`), apart from the events that the log is made of.

* `Phase.story_append_of_no_warmups`, `Phase.story_cons`, `Phase.story_warmups`: the
  story, block by block;
* `Config.story_openingPhases`, `Program.story_closingPhases`: the two parts of a
  run are told alike in both records;
* `Config.log_eq_entries`: the whole log.
-/

namespace StaticInit

/-! ## Entries -/

/-- What stands on a line of the log. -/
structure Entry where
  level : Level
  message : String

/-- The word that a line of the level begins with. -/
def Level.tag : Level → String
  | .trace => "TRACE"
  | .debug => "DEBUG"
  | .info => "INFO"
  | .warn => "WARN"
  | .error => "ERROR"

def Entry.line (e : Entry) : String := e.level.tag ++ " " ++ e.message

/-- The name of a type in the log. -/
def Kind.word : Kind → String
  | .base => "base"
  | .derived => "derived"

def Event.entry (e : Event) : Entry := ⟨e.level, e.text⟩

theorem Event.line_eq_entry (e : Event) : e.line = e.entry.line := by
  unfold line Entry.line entry
  cases e.level <;> rfl

theorem Event.map_line (events : List Event) :
    events.map line = (events.map entry).map Entry.line := by
  rw [List.map_map]
  exact List.map_congr_left fun e _ => e.line_eq_entry

namespace Phase

/-- Whether two neighbours are told of together: warmups are, and nothing else is. -/
def together : Phase → Phase → Bool
  | .warmupIncrement _, .warmupIncrement _ => true
  | _, _ => false

/-- What is told of phases that are told of together. What they come to is known from the last. -/
def told (input sum : Int32) (block : List Phase) : List Entry :=
  match block.getLast? with
  | some (.counterInitialized seed) =>
    [⟨.trace, "initializing counter owner seed=" ++ seed.toInt.repr⟩]
  | some (.warmupIncrement counter) =>
    [⟨.trace, "warmup increments done count=" ++ block.length.repr ++
      " counter=" ++ counter.toInt.repr⟩]
  | some (.warmupSkipped count) =>
    [⟨.warn, "warmup increments skipped: derived sum fixed before any instance exists count=" ++
      count.toNat.repr⟩]
  | some (.sumDerived seed derived) =>
    [⟨.trace, "initializing derived sum seed=" ++ seed.toInt.repr ++
      " sum=" ++ derived.toInt.repr⟩]
  | some (.dispatched runtime resolved) =>
    [⟨.debug, "dispatched decr runtime=\"" ++ runtime.word ++
      "\" resolved=\"" ++ resolved.word ++ "\""⟩]
  | some (.reported result) =>
    [⟨.debug, "reported input=" ++ input.toInt.repr ++ " sum=" ++ sum.toInt.repr ++
      " result=" ++ result.toInt.repr⟩]
  | some (.arraysTouched readback) =>
    [⟨.trace, "arrays touched tmp=" ++ readback.toInt.repr ++
      " rows=10 strings=10 greeting=\"Hello, World.\""⟩]
  | some .baseIncremented | some .baseDecremented | none => []

/-- What phases stand for in the log, one maximal block of warmups at a time. -/
def story (input sum : Int32) (phases : List Phase) : List Entry :=
  (phases.splitBy together).flatMap (told input sum)

variable {input sum : Int32}

theorem story_append {first next : List Phase}
    (h : ∀ a ∈ first.getLast?, ∀ b ∈ next.head?, together a b = false) :
    story input sum (first ++ next) = story input sum first ++ story input sum next := by
  rw [story, List.splitBy_append h, List.flatMap_append, story, story]

theorem together_comm (a b : Phase) : together a b = together b a := by
  cases a <;> cases b <;> rfl

/-- Where no warmups come next, a block does not go on. -/
theorem story_append_of_no_warmups {next : List Phase}
    (h : ∀ a ∈ next, ∀ b, together a b = false) (first : List Phase) :
    story input sum (first ++ next) = story input sum first ++ story input sum next := by
  refine story_append fun a _ b hb => ?_
  rw [together_comm]
  exact h b (List.mem_of_head? hb) a

theorem story_cons {a : Phase} (ha : ∀ b, together a b = false) (phases : List Phase) :
    story input sum (a :: phases) = told input sum [a] ++ story input sum phases := by
  have hblock : story input sum [a] = told input sum [a] := by
    simp [story, List.splitBy_of_isChain]
  rw [← hblock, ← story_append (by simp [ha])]
  rfl

/-- Warmups in a row are one block, however many there are. -/
theorem story_warmups (counters : List Int32) :
    story input sum (counters.map .warmupIncrement) = counters.getLast?.toList.map fun counter =>
      ⟨.trace, "warmup increments done count=" ++ counters.length.repr ++
        " counter=" ++ counter.toInt.repr⟩ := by
  rcases List.eq_nil_or_concat' counters with rfl | ⟨before, last, rfl⟩
  · rfl
  · have hchain : ((before ++ [last]).map warmupIncrement).IsChain
        fun a b => together a b = true := by
      rw [List.isChain_map]
      exact (List.pairwise_of_forall fun _ _ => rfl).isChain
    rw [story, List.splitBy_of_isChain (by simp) hchain, List.flatMap_singleton, told]
    simp only [List.getLast?_map, List.getLast?_concat, Option.map_some, Option.toList_some,
      List.map_cons, List.map_nil, List.length_map]

/-- The event that a phase other than a warmup is told of together with. -/
def event? (input sum : Int32) : Phase → Option Event
  | .counterInitialized seed => some (.counterSeeded seed)
  | .warmupSkipped count => some (.warmupsSkipped count)
  | .sumDerived seed derived => some (.sumFixed seed derived)
  | .dispatched runtime resolved => some (.dispatched runtime resolved)
  | .reported result => some (.reported input sum result)
  | .arraysTouched readback => some (.arraysTouched readback 10 10 "Hello, World.")
  | .warmupIncrement _ | .baseIncremented | .baseDecremented => none

theorem text_arraysTouched (readback : Int32) :
    (Event.arraysTouched readback 10 10 "Hello, World.").text =
      "arrays touched tmp=" ++ readback.toInt.repr ++
        " rows=10 strings=10 greeting=\"Hello, World.\"" := by
  have hten : (10 : Nat).repr = "10" := rfl
  show "arrays touched tmp=" ++ readback.toInt.repr ++ " rows=" ++ (10 : Nat).repr ++ " strings=" ++
    (10 : Nat).repr ++ " greeting=\"" ++ "Hello, World." ++ "\"" = _
  generalize readback.toInt.repr = text
  rw [hten, ← String.toList_inj]
  simp

theorem told_singleton {phase : Phase} (h : ∀ b, phase.together b = false) :
    told input sum [phase] = (phase.event? input sum).toList.map Event.entry := by
  cases phase with
  | warmupIncrement counter => exact absurd (h (.warmupIncrement counter)) Bool.noConfusion
  | dispatched runtime resolved => cases runtime <;> cases resolved <;> rfl
  | arraysTouched readback =>
    show [Entry.mk .trace _] = [Entry.mk .trace _]
    rw [text_arraysTouched]
  | _ => rfl

theorem story_of_no_warmups {phases : List Phase} (h : ∀ a ∈ phases, ∀ b, together a b = false) :
    story input sum phases = (phases.filterMap (event? input sum)).map Event.entry := by
  induction phases with
  | nil => rfl
  | cons a phases ih =>
    obtain ⟨ha, hphases⟩ := List.forall_mem_cons.mp h
    rw [story_cons ha, told_singleton ha, ih hphases, List.filterMap_cons]
    cases a.event? input sum <;> rfl

end Phase

open Phase

/-! ## The two parts of a run -/

theorem Program.no_warmups (p : Program) (result : Int32) :
    ∀ a ∈ p.closingPhases result, ∀ b, together a b = false := by
  cases p <;> simp [closingPhases, together]

theorem Program.story_closingPhases (p : Program) (input sum : Int32) :
    story input sum (p.closingPhases (input + sum)) =
      (p.closingEvents input sum).map Event.entry := by
  rw [story_of_no_warmups (p.no_warmups _)]
  cases p <;> rfl

namespace Config

/-- The last of the warmups leaves the counter that stays. -/
theorem getLast?_warmups {c : Config} (h : c.order = .counterFirst) :
    ((List.range c.warmups.toNat).map fun i => c.seed + c.mode.moved (i + 1)).getLast? =
      if 0 < c.warmups then some c.finalCounter else none := by
  rw [finalCounter_counterFirst h]
  cases hw : c.warmups.toNat with
  | zero =>
    have hzero : ¬ 0 < c.warmups := by rw [UInt32.lt_iff_toNat_lt, hw]; decide
    rw [if_neg hzero]
    rfl
  | succ n =>
    have hpos : 0 < c.warmups := by rw [UInt32.lt_iff_toNat_lt, hw]; exact Nat.succ_pos n
    rw [if_pos hpos, List.range_succ, List.map_append, List.map_singleton, List.getLast?_concat]

/-- The phases of the static phase, and the events that follow its announcement. -/
theorem story_openingPhases (c : Config) (input sum : Int32) :
    story input sum (c.openingPhases c.derivedSum) = c.openingEvents.tail.map Event.entry := by
  cases ho : c.order with
  | counterFirst =>
    have hwarmups : (List.range c.warmups.toNat).map
        (fun i => Phase.warmupIncrement (c.seed + c.mode.moved (i + 1))) =
        ((List.range c.warmups.toNat).map fun i => c.seed + c.mode.moved (i + 1)).map
          .warmupIncrement := by
      rw [List.map_map]
      rfl
    have hlast : ∀ a ∈ [Phase.sumDerived c.finalCounter c.derivedSum],
        ∀ b, together a b = false := by
      simp [together]
    have hsum : story input sum [.sumDerived c.finalCounter c.derivedSum] =
        [(Event.sumFixed c.finalCounter c.derivedSum).entry] := story_of_no_warmups hlast
    simp only [openingPhases, openingEvents, ho, List.tail_cons]
    -- The sum ends the block of warmups, of which there may be none.
    rw [List.cons_append, story_cons fun _ => rfl, hwarmups,
      story_append_of_no_warmups hlast, story_warmups, getLast?_warmups ho, hsum]
    split
    · simp only [List.length_map, List.length_range]
      rfl
    · rfl
  | sumFirst =>
    have hphases : ∀ a ∈ c.openingPhases c.derivedSum, ∀ b, together a b = false := by
      simp only [openingPhases, ho]
      split <;> simp [together]
    rw [story_of_no_warmups hphases]
    simp only [openingPhases, openingEvents, ho]
    split <;> rfl

end Config

/-! ## The whole run -/

/-- What the log of a run with this report tells: of the configuration, of the order of the static
phase, and then of the phases. -/
def Config.entries (c : Config) (r : Report) : List Entry :=
  [⟨.debug, "starting evaluation config=" ++ c.laidOut⟩,
    ⟨.debug, "static phase order=" ++ c.order.title⟩] ++
  story c.input r.derivedSum r.phases

theorem Config.log_eq_entries (c : Config) : c.log.map Event.entry = c.entries c.firstReport := by
  have hphases : c.firstReport.phases =
      c.openingPhases c.derivedSum ++ c.program.closingPhases (c.input + c.derivedSum) := rfl
  have hevents : c.openingEvents = .staticPhase c.order :: c.openingEvents.tail := rfl
  have hstarted : (Event.started c).entry =
      ⟨.debug, "starting evaluation config=" ++ c.laidOut⟩ := by
    rw [← c.text_eq_laidOut]
    rfl
  have hstatic : (Event.staticPhase c.order).entry =
      ⟨.debug, "static phase order=" ++ c.order.title⟩ := by
    rw [← c.order.name_eq_title]
    rfl
  rw [entries, hphases, story_append_of_no_warmups (c.program.no_warmups _),
    Config.story_openingPhases, show c.firstReport.derivedSum = c.derivedSum from rfl,
    Program.story_closingPhases, log, List.map_cons, List.map_append, hevents, hstarted,
    List.map_cons, hstatic]
  rfl

namespace CommandLine

/-- At the lowest level the log tells of the configuration, of the order of the static phase, and
then the story of the phases in the report of the same run. -/
theorem log_tells_phases {arguments : List String} {i : Args.Invocation}
    (hi : Args.Invocation.ofArguments arguments = .ok i) :
    threshold (some "trace") i.verbosity = .least .trace ∧
      (2 ≤ i.verbosity → threshold none i.verbosity = .least .trace) ∧
      ∃ r, (Evaluation.fresh i.config).run = .ok r ∧
        ∀ level?, threshold level? i.verbosity = .least .trace →
          (run level? arguments).stderr =
            ([Entry.mk .debug ("starting evaluation config=" ++ i.config.laidOut),
                Entry.mk .debug ("static phase order=" ++ i.config.order.title)] ++
              story i.config.input r.report.derivedSum r.report.phases).map Entry.line ++
            if i.report then r.report.laidOut else [] := by
  obtain ⟨r, hr, hreport, -⟩ := Evaluation.run_fresh i.config
  have htrace : threshold (some "trace") i.verbosity = .least .trace :=
    threshold_of_text (Threshold.ofText?_word .trace) i.verbosity
  have hflags : 2 ≤ i.verbosity → threshold none i.verbosity = .least .trace := by
    intro h
    obtain ⟨n, hn⟩ := Nat.exists_eq_add_of_le' h
    rw [hn]
    rfl
  refine ⟨htrace, hflags, r, hr, fun level? hlevel => ?_⟩
  have hentries : [Entry.mk .debug ("starting evaluation config=" ++ i.config.laidOut),
      Entry.mk .debug ("static phase order=" ++ i.config.order.title)] ++
      story i.config.input r.report.derivedSum r.report.phases = i.config.log.map Event.entry := by
    rw [hreport]
    exact i.config.log_eq_entries.symm
  rw [run_of_accepted hi, hlevel, Threshold.lines_trace, Event.map_line, hentries, hreport,
    Report.lines_eq_laidOut]

/-- Three warmups that carry the counter past the largest number, with the report behind. -/
theorem log_tells_phases_wrapping :
    ∃ i r, Args.Invocation.ofArguments ["--seed=2147483646", "-vv", "--report", "--program",
        "hello-world", "--warmup", "3"] = .ok i ∧
      (Evaluation.fresh i.config).run = .ok r ∧
      (run none ["--seed=2147483646", "-vv", "--report", "--program", "hello-world",
          "--warmup", "3"]).stderr =
        ([Entry.mk .debug ("starting evaluation config=" ++ i.config.laidOut),
            Entry.mk .debug "static phase order=CounterFirst"] ++
          story 1 r.report.derivedSum r.report.phases).map Entry.line ++ r.report.laidOut := by
  have hi : Args.Invocation.ofArguments ["--seed=2147483646", "-vv", "--report", "--program",
      "hello-world", "--warmup", "3"] = .ok {
        config := {
          seed := 2147483646, mode := .chainThrough, warmups := 3, program := .helloWorld }
        report := true
        verbosity := 2 } := rfl
  obtain ⟨-, hflags, r, hr, hstderr⟩ := log_tells_phases hi
  exact ⟨_, r, hi, hr, hstderr none (hflags (Nat.le_refl 2))⟩

example : (run none ["-vv", "--seed=2147483646", "--program=hello-world", "--warmup=3"]).stderr = [
    "DEBUG starting evaluation config=EvalConfig \x7b counter_seed: 2147483646, " ++
      "override_mode: ChainThrough, init_order: CounterFirst, warmup_increments: 3, input: 1, " ++
      "program: HelloWorld \x7d",
    "DEBUG static phase order=CounterFirst",
    "TRACE initializing counter owner seed=2147483646",
    "TRACE warmup increments done count=3 counter=-2147483647",
    "TRACE initializing derived sum seed=-2147483647 sum=-2147483637",
    "DEBUG dispatched decr runtime=\"derived\" resolved=\"base\"",
    "DEBUG reported input=1 sum=-2147483637 result=-2147483636",
    "TRACE arrays touched tmp=-889275714 rows=10 strings=10 greeting=\"Hello, World.\""] := by
  decide +kernel

end CommandLine

end StaticInit
