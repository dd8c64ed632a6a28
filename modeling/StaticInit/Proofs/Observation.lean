import StaticInit.Proofs.Invocations
import StaticInit.Proofs.Story

/-!
# Looking changes nothing

How much of the log is shown is for the environment to say (`Wish`), and else
for the arguments. It decides which entries of the whole log are printed, and
nothing else: the result and the exit code are those of the configuration. The
whole log is the one that tells of the report of the same run (`Config.entries`),
and the levels that are shown are listed for each wish (`Wish.shown`).

* `Wish.admits_threshold`: what the program makes of a wish;
* `Wish.shown_mono`, `Entry.linesOf_sublist`: more verbosity shows more, and what
  shows more only puts lines in between;
* `CommandLine.stderr_of_accepted`, `CommandLine.run_of_refused`: what is printed
  for arguments that are accepted, and for those that are not.
-/

namespace StaticInit

/-! ## Levels -/

/-- The levels that matter as much or more. -/
def Level.upward : Level → List Level
  | .trace => [.trace, .debug, .info, .warn, .error]
  | .debug => [.debug, .info, .warn, .error]
  | .info => [.info, .warn, .error]
  | .warn => [.warn, .error]
  | .error => [.error]

theorem Level.upward_subset (l : Level) : l.upward ⊆ upward .trace := by
  cases l <;> decide

theorem Threshold.admits_least (lowest l : Level) :
    (least lowest).admits l = decide (l ∈ lowest.upward) := by
  cases lowest <;> cases l <;> rfl

/-- The lines of the entries that are of one of the levels, in their order. -/
def Entry.linesOf (levels : List Level) (entries : List Entry) : List String :=
  (entries.filter fun e => e.level ∈ levels).map Entry.line

/-- With more levels, lines are only put in between. -/
theorem Entry.linesOf_sublist {some more : List Level} (h : some ⊆ more) (entries : List Entry) :
    (linesOf some entries).Sublist (linesOf more entries) := by
  refine (List.monotone_filter_right entries fun e he => ?_).map Entry.line
  rw [decide_eq_true_eq] at he ⊢
  exact h he

theorem Threshold.lines_eq_linesOf {t : Threshold} {levels : List Level}
    (h : ∀ l, t.admits l = decide (l ∈ levels)) (events : List Event) :
    t.lines events = Entry.linesOf levels (events.map Event.entry) := by
  have hshown : (fun e : Event => t.admits e.level) =
      (fun e : Entry => decide (e.level ∈ levels)) ∘ Event.entry := funext fun e => h e.level
  rw [lines, Event.map_line, hshown, Entry.linesOf, List.filter_map]

/-! ## Wishes -/

/-- What the environment wants of the log. -/
inductive Wish where
  | unset
  /-- Set, to the empty text. -/
  | empty
  | off
  | least (level : Level)

namespace Wish

/-- The text that the level is set by, if it is set. -/
def text? : Wish → Option String
  | unset => none
  | empty => some ""
  | off => some "off"
  | least l => some l.word

/-- The lowest level shown where the environment does not say, by the number of flags. -/
def flagged : Nat → Level
  | 0 => .warn
  | 1 => .debug
  | _ + 2 => .trace

/-- The levels that are shown where there are so many flags for more of the log. -/
def shown (w : Wish) (flags : Nat) : List Level :=
  match w with
  | unset => (flagged flags).upward
  | empty => [.error]
  | off => []
  | least l => l.upward

/-- What the program makes of a wish admits just the levels that are to be shown. -/
theorem admits_threshold (w : Wish) (flags : Nat) (l : Level) :
    (CommandLine.threshold w.text? flags).admits l = decide (l ∈ w.shown flags) := by
  cases w with
  | unset =>
    have hflags : CommandLine.threshold (text? unset) flags = .least (flagged flags) := by
      match flags with
      | 0 | 1 | _ + 2 => rfl
    rw [hflags, Threshold.admits_least]
    rfl
  | empty =>
    have hempty : CommandLine.threshold (text? empty) flags = .least .error :=
      CommandLine.threshold_of_text Threshold.ofText?_empty flags
    rw [hempty, Threshold.admits_least]
    rfl
  | off =>
    have hoff : CommandLine.threshold (text? off) flags = .silent :=
      CommandLine.threshold_of_text Threshold.ofText?_off flags
    rw [hoff]
    rfl
  | least lowest =>
    have hleast : CommandLine.threshold (text? (least lowest)) flags = .least lowest :=
      CommandLine.threshold_of_text (Threshold.ofText?_word lowest) flags
    rw [hleast, Threshold.admits_least]
    rfl

theorem flagged_limit (flags : Nat) :
    flagged (min flags Args.Invocation.maxVerbosity) = flagged flags := by
  match flags with
  | 0 | 1 => rfl
  | n + 2 =>
    show flagged (min (n + 2) (253 + 2)) = _
    rw [Nat.add_min_add_right]
    rfl

/-- That the flags are counted no further than to a limit makes no difference. -/
theorem shown_limit (w : Wish) (flags : Nat) :
    w.shown (min flags Args.Invocation.maxVerbosity) = w.shown flags := by
  cases w with
  | unset => exact congrArg Level.upward (flagged_limit flags)
  | _ => rfl

theorem shown_mono (w : Wish) {m n : Nat} (h : m ≤ n) : w.shown m ⊆ w.shown n := by
  cases w with
  | unset =>
    show (flagged m).upward ⊆ (flagged n).upward
    match m, n with
    | 0, 0 | 0, 1 | 1, 1 => decide
    | m, _ + 2 => exact (flagged m).upward_subset
    | _ + 1, 0 | _ + 2, 1 => omega
  | _ => exact List.Subset.refl _

end Wish

/-! ## What is printed -/

namespace CommandLine

open Args (Invocation Request Spell)

variable {arguments others : List String} {i j : Invocation}

theorem exists_spell (hi : Invocation.ofArguments arguments = .ok i) :
    ∃ requests, Spell arguments requests ∧ i.Answers requests := by
  obtain ⟨requests, hread, rfl⟩ := Invocation.ofArguments_eq_ok_iff.mp hi
  exact ⟨requests, Args.read_eq_ok_iff.mp hread, Invocation.answers_ofRequests requests⟩

/-- The entries of the whole log that are to be shown, and the report behind them. -/
theorem stderr_of_accepted (hi : Invocation.ofArguments arguments = .ok i) (w : Wish) :
    (run w.text? arguments).stderr =
      Entry.linesOf (w.shown i.verbosity) (i.config.entries i.config.firstReport) ++
        if i.report then i.config.firstReport.laidOut else [] := by
  rw [run_of_accepted hi, Threshold.lines_eq_linesOf (w.admits_threshold i.verbosity),
    Config.log_eq_entries, Report.lines_eq_laidOut]

theorem stdout_of_accepted (hi : Invocation.ofArguments arguments = .ok i) (level? : Option String) :
    (run level? arguments).stdout = i.config.firstReport.result.toInt.repr ++ "\n" := by
  rw [run_of_accepted hi]
  rfl

theorem exit_of_accepted (hi : Invocation.ofArguments arguments = .ok i) (level? : Option String) :
    (run level? arguments).exit = 0 := by
  rw [run_of_accepted hi]

theorem run_of_refused {p : Args.Problem}
    (h : Invocation.ofArguments arguments = .error (.refused p)) (level? : Option String) :
    run level? arguments = { exit := 2, stdout := "", stderr := [p.printed] } := by
  simp only [run, h]

/-- What is shown of the log, and whether the report is, changes neither the result nor the exit
code: these belong to the configuration that was asked for. Of the whole log the levels that are
wanted are shown, with the report behind them where it is requested. More verbosity shows more
levels, and that only puts lines in between. Where arguments are refused, nothing depends on what is
wanted of the log. -/
theorem log_keeps_outcome (w : Wish) (arguments : List String) :
    (∀ i, Invocation.ofArguments arguments = .ok i →
      (∃ requests r, Spell arguments requests ∧ (Evaluation.fresh i.config).run = .ok r ∧
        (run w.text? arguments).exit = 0 ∧
        (run w.text? arguments).stdout = r.report.result.toInt.repr ++ "\n" ∧
        (run w.text? arguments).stderr =
          ((i.config.entries r.report).filter fun e =>
            e.level ∈ w.shown (requests.count .verbose)).map Entry.line ++
          if .report ∈ requests then r.report.laidOut else []) ∧
      ∀ w' others j, Invocation.ofArguments others = .ok j → j.config = i.config →
        (run w'.text? others).exit = (run w.text? arguments).exit ∧
        (run w'.text? others).stdout = (run w.text? arguments).stdout ∧
        (j.report = i.report → w.shown i.verbosity ⊆ w'.shown j.verbosity →
          (run w.text? arguments).stderr.Sublist (run w'.text? others).stderr) ∧
        (w' = w → i.verbosity ≤ j.verbosity → w.shown i.verbosity ⊆ w'.shown j.verbosity)) ∧
    ∀ p, Invocation.ofArguments arguments = .error (.refused p) → ∀ level?,
      run level? arguments = { exit := 2, stdout := "", stderr := [p.printed] } := by
  refine ⟨fun i hi => ⟨?_, fun w' others j hj hconfig => ⟨?_, ?_, fun hreport hshown => ?_, ?_⟩⟩,
    fun p hp => run_of_refused hp⟩
  · obtain ⟨requests, hspell, hanswers⟩ := exists_spell hi
    obtain ⟨r, hr, hreport, -⟩ := Evaluation.run_fresh i.config
    have hshown : w.shown i.verbosity = w.shown (requests.count .verbose) := by
      rw [hanswers.verbosity]
      exact w.shown_limit _
    refine ⟨requests, r, hspell, hr, exit_of_accepted hi _, ?_, ?_⟩
    · rw [stdout_of_accepted hi, hreport]
    · rw [stderr_of_accepted hi, hshown, hreport]
      simp only [hanswers.report]
      rfl
  · rw [exit_of_accepted hi, exit_of_accepted hj]
  · rw [stdout_of_accepted hi, stdout_of_accepted hj, hconfig]
  · rw [stderr_of_accepted hi, stderr_of_accepted hj, hconfig, hreport]
    exact (Entry.linesOf_sublist hshown _).append_right _
  · rintro rfl hverbosity
    exact w'.shown_mono hverbosity

/-- The same configuration in two spellings, once with nothing of the log and once with more. -/
theorem log_keeps_outcome_respelled :
    (run none ["-v", "--warmup=2", "--order", "sum-first"]).exit =
        (run (some "off") ["--order=sum-first", "--warmup", "2"]).exit ∧
      (run none ["-v", "--warmup=2", "--order", "sum-first"]).stdout =
        (run (some "off") ["--order=sum-first", "--warmup", "2"]).stdout ∧
      (run (some "off") ["--order=sum-first", "--warmup", "2"]).stderr.Sublist
        (run none ["-v", "--warmup=2", "--order", "sum-first"]).stderr := by
  have hquiet : Invocation.ofArguments ["--order=sum-first", "--warmup", "2"] =
      .ok { config := { order := .sumFirst, warmups := 2 }, report := false, verbosity := 0 } := rfl
  have hverbose : Invocation.ofArguments ["-v", "--warmup=2", "--order", "sum-first"] =
      .ok { config := { order := .sumFirst, warmups := 2 }, report := false, verbosity := 1 } := rfl
  obtain ⟨hexit, hstdout, hstderr, -⟩ :=
    ((log_keeps_outcome .off _).1 _ hquiet).2 .unset _ _ hverbose rfl
  exact ⟨hexit, hstdout, hstderr rfl (List.nil_subset _)⟩

example : run (some "info") ["-vv", "--order=sum-first", "--warmup=2", "--report"] =
    { exit := 0
      stdout := "11\n"
      stderr := [
        "WARN warmup increments skipped: derived sum fixed before any instance exists count=2",
        "Report \x7b",
        "    result: 11,",
        "    derived_sum: 10,",
        "    counter: 100,",
        "    base_accumulator: 1,",
        "    derived_accumulator: -1,",
        "    array_readback: None,",
        "    phases: [",
        "        SumDerived \x7b",
        "            seed: 0,",
        "            sum: 10,",
        "        \x7d,",
        "        CounterInitialized \x7b",
        "            seed: 100,",
        "        \x7d,",
        "        WarmupSkipped \x7b",
        "            count: 2,",
        "        \x7d,",
        "        BaseIncremented,",
        "        Dispatched \x7b",
        "            runtime: Derived,",
        "            resolved: Base,",
        "        \x7d,",
        "        Reported \x7b",
        "            result: 11,",
        "        \x7d,",
        "    ],",
        "\x7d"] } := by
  decide +kernel

end CommandLine

end StaticInit
