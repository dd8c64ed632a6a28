import StaticInit.Proofs.FullLog
import StaticInit.Proofs.Layouts
import StaticInit.Proofs.Numerals

/-!
# Reading reports back

Different reports have different lines, and the lines of a report can be told from
those of the log before them. Both rest on single lines. The first line of a phase
tells its constructor and with it how many lines it takes, so that one phase after
the other can be split off (`Phase.lines_append_inj`). Within a report no line
equals its first or its last one, for all of them are indented, and in the log no
line equals the first one, for those begin with the name of a level. A report is
thus the part from the one to the other, whatever stands around it (`Report.part`).

* `Report.flatMap_lines_inj`: lists of phases, by induction on both;
* `Report.lines_inj`, `Report.lines_append_inj`: reports, and reports before other lines;
* `Report.part_append`: reports among other lines;
* `Report.uniquely_readable`: all of this, and what the program prints.
-/

namespace StaticInit

/-! ## Layout -/

namespace Layout

variable {opening closing line : String} {body body' rest rest' : List String}

theorem field_inj (name : String) {value value' : String} :
    field name value = field name value' ↔ value = value' := by
  rw [field, field, String.append_left_inj, String.append_right_inj]

theorem indent_inj : indent body = indent body' ↔ body = body' :=
  List.map_inj_right fun _ _ => (String.append_right_inj _).mp

theorem block_inj : block opening body closing = block opening body' closing ↔ body = body' := by
  rw [block, block, List.cons_inj_right, List.append_left_inj, indent_inj]

/-- Blocks whose bodies take equally many lines. -/
theorem block_append_inj
    (h : block opening body closing ++ rest = block opening body' closing ++ rest')
    (hlength : body.length = body'.length) : body = body' ∧ rest = rest' := by
  have hblocks : (block opening body closing).length = (block opening body' closing).length := by
    simp only [block, indent, List.length_cons, List.length_append, List.length_map, hlength]
  obtain ⟨hblock, hrest⟩ := List.append_inj h hblocks
  exact ⟨block_inj.mp hblock, hrest⟩

theorem notMem_indent (h : line.toList.head? ≠ some ' ') (body : List String) :
    line ∉ indent body := by
  intro hmem
  obtain ⟨inner, -, rfl⟩ := List.mem_map.mp hmem
  rw [String.toList_append] at h
  exact h rfl

end Layout

open Layout

/-! ## Phases -/

theorem Kind.variant_inj {k k' : Kind} : k.variant = k'.variant ↔ k = k' := by
  cases k <;> cases k' <;> decide

namespace Phase

variable {p q : Phase} {rest rest' : List String}

theorem lines_ne_nil (p : Phase) : p.lines ≠ [] := by
  cases p <;> exact List.cons_ne_nil _ _

/-- A phase can be told from what follows it. -/
theorem lines_append_inj (h : p.lines ++ rest = q.lines ++ rest') : p = q ∧ rest = rest' := by
  -- Where the constructors differ, so do the first lines; nine cases are left.
  cases p <;> cases q <;> try exact absurd (List.cons.inj h).1 (by decide)
  case baseIncremented.baseIncremented => exact ⟨rfl, (List.cons.inj h).2⟩
  case baseDecremented.baseDecremented => exact ⟨rfl, (List.cons.inj h).2⟩
  all_goals
    rw [lines, lines] at h
    -- The lengths are counted out: to compare the bodies would unfold the numbers in them.
    obtain ⟨hbody, rfl⟩ := block_append_inj h (by simp)
    simpa only [List.cons.injEq, field_inj, Numeral.signed_inj, Numeral.unsigned_inj,
      Kind.variant_inj, and_true, counterInitialized.injEq, warmupIncrement.injEq, warmupSkipped.injEq,
      sumDerived.injEq, dispatched.injEq, reported.injEq, arraysTouched.injEq] using hbody

end Phase

namespace Report

variable {r r' : Report} {rest rest' log : List String}

theorem flatMap_lines_inj {ps qs : List Phase}
    (h : ps.flatMap Phase.lines = qs.flatMap Phase.lines) : ps = qs := by
  induction ps generalizing qs with
  | nil =>
    cases qs with
    | nil => rfl
    | cons q qs => exact absurd (List.append_eq_nil_iff.mp h.symm).1 q.lines_ne_nil
  | cons p ps ih =>
    cases qs with
    | nil => exact absurd (List.append_eq_nil_iff.mp h).1 p.lines_ne_nil
    | cons q qs =>
      obtain ⟨rfl, hnext⟩ := Phase.lines_append_inj h
      rw [ih hnext]

/-! ## Reports -/

theorem readbackLines_append_inj {x y : Option Int32}
    (h : readbackLines x ++ rest = readbackLines y ++ rest') : x = y ∧ rest = rest' := by
  cases x with
  | none =>
    cases y with
    | none => exact ⟨rfl, (List.cons.inj h).2⟩
    | some y => exact absurd (List.cons.inj h).1 (by decide)
  | some x =>
    cases y with
    | none => exact absurd (List.cons.inj h).1 (by decide)
    | some y =>
      rw [readbackLines, readbackLines] at h
      obtain ⟨hbody, rfl⟩ := block_append_inj h (by simp)
      have hvalue := (String.append_left_inj ",").mp (List.cons.inj hbody).1
      exact ⟨congrArg some (Numeral.signed_inj.mp hvalue), rfl⟩

theorem phaseLines_inj {ps qs : List Phase} (h : phaseLines ps = phaseLines qs) : ps = qs := by
  cases ps with
  | nil =>
    cases qs with
    | nil => rfl
    | cons q qs => exact absurd (List.cons.inj h).1 (by decide)
  | cons p ps =>
    cases qs with
    | nil => exact absurd (List.cons.inj h).1 (by decide)
    | cons q qs => exact flatMap_lines_inj (block_inj.mp h)

theorem lines_inj : r.lines = r'.lines ↔ r = r' := by
  refine ⟨fun h => ?_, congrArg lines⟩
  have hbody := block_inj.mp h
  simp only [List.cons_append, List.nil_append, List.cons.injEq, field_inj,
    Numeral.signed_inj] at hbody
  obtain ⟨hresult, hsum, hcounter, hbase, hderived, hrest⟩ := hbody
  obtain ⟨hreadback, hphases⟩ := readbackLines_append_inj hrest
  cases r
  cases r'
  simp only [mk.injEq]
  exact ⟨hresult, hsum, hcounter, hbase, hderived, hreadback, phaseLines_inj hphases⟩

/-! ## Reports among other lines -/

/-- The first line of a report. -/
def opening : String := "Report \x7b"

/-- The last line of a report. -/
def closing : String := "\x7d"

/-- The lines from the first that opens a report to the next that closes one. -/
def part (lines : List String) : List String :=
  (lines.dropWhile (· != opening)).takeWhile (· != closing) ++ [closing]

/-- What stands between the first and the last line is like neither of them. -/
theorem exists_body (r : Report) :
    ∃ body, r.lines = opening :: (body ++ [closing]) ∧ opening ∉ body ∧ closing ∉ body :=
  ⟨_, rfl, notMem_indent (by decide) _, notMem_indent (by decide) _⟩

theorem part_append (hlog : opening ∉ log) (r : Report) (rest : List String) :
    part (log ++ r.lines ++ rest) = r.lines := by
  obtain ⟨body, hr, -, hbody⟩ := r.exists_body
  have hbefore : ∀ line ∈ log, (line != opening) = true := fun line hline =>
    bne_iff_ne.mpr fun he => hlog (he ▸ hline)
  have hbegin : (log ++ r.lines ++ rest).dropWhile (· != opening) =
      opening :: body ++ closing :: rest := by
    rw [List.append_assoc, List.dropWhile_append_of_pos hbefore, hr, List.cons_append,
      List.dropWhile_cons_of_neg (by simp), List.append_assoc, List.singleton_append,
      List.cons_append]
  have hwithin : ∀ line ∈ opening :: body, (line != closing) = true := by
    intro line hline
    rw [bne_iff_ne]
    rintro rfl
    rcases List.mem_cons.mp hline with he | hmem
    · exact absurd he (by decide)
    · exact hbody hmem
  rw [part, hbegin, List.takeWhile_append_of_pos hwithin, List.takeWhile_cons_of_neg (by simp),
    List.append_nil, hr, List.cons_append]

/-- A report can be told from what follows it. -/
theorem lines_append_inj : r.lines ++ rest = r'.lines ++ rest' ↔ r = r' ∧ rest = rest' := by
  constructor
  · intro h
    have hlines : r.lines = r'.lines := by
      rw [← part_append List.not_mem_nil r rest, List.nil_append, h]
      exact part_append List.not_mem_nil r' rest'
    obtain rfl := lines_inj.mp hlines
    exact ⟨rfl, List.append_cancel_left h⟩
  · rintro ⟨rfl, rfl⟩
    rfl

end Report

/-! ## What the program prints -/

/-- A line of the log begins with the name of a level. -/
theorem Event.line_ne_opening (e : Event) : e.line ≠ Report.opening := by
  have hhead : ∀ (l : Level) (text : String),
      (l.name ++ " " ++ text).toList.head? ≠ Report.opening.toList.head? := by
    intro l text
    rw [String.append_assoc, String.toList_append]
    cases l <;> exact nofun
  intro he
  exact hhead e.level e.text (by rw [← Event.line, he])

theorem Threshold.opening_notMem (t : Threshold) (events : List Event) :
    Report.opening ∉ t.lines events := by
  intro hmem
  obtain ⟨e, -, he⟩ := List.mem_map.mp hmem
  exact e.line_ne_opening he

open Report CommandLine in
/-- Reports, laid out by rule, are told apart by their lines, also behind a log, before other lines
and in what the program prints. -/
theorem Report.uniquely_readable :
    (∀ r : Report, r.lines = r.laidOut) ∧
    (∀ r r' : Report, r.lines = r'.lines ↔ r = r') ∧
    (∀ (r r' : Report) (rest rest' : List String),
      r.lines ++ rest = r'.lines ++ rest' ↔ r = r' ∧ rest = rest') ∧
    (∀ (t : Threshold) (events : List Event) (r : Report) (rest : List String),
      part (t.lines events ++ r.lines ++ rest) = r.lines) ∧
    ∀ level? arguments i, Args.Invocation.ofArguments arguments = .ok i →
      ∃ e, Evaluation.run { config := i.config } = .ok e ∧
        (opening ∈ (run level? arguments).stderr ↔ i.report = true) ∧
        (i.report = true → ∀ r : Report, part (run level? arguments).stderr = r.lines ↔
          r = e.report) := by
  refine ⟨lines_eq_laidOut, fun _ _ => lines_inj, fun _ _ _ _ => lines_append_inj,
    fun t events => part_append (t.opening_notMem events), fun level? arguments i hi => ?_⟩
  obtain ⟨e, he, hreport, -⟩ := Evaluation.run_fresh i.config
  have hlog := (threshold level? i.verbosity).opening_notMem i.config.log
  obtain ⟨body, hbody, -⟩ := e.report.exists_body
  rw [run_of_accepted hi, ← hreport]
  refine ⟨e, he, ?_, fun hwanted r => ?_⟩
  · cases hwanted : i.report with
    | false => simpa using hlog
    | true => simp [hbody]
  · have hpart := part_append hlog e.report []
    rw [List.append_nil] at hpart
    rw [if_pos hwanted, hpart, lines_inj, eq_comm]

/-- A report of the second program behind the whole log, and a log without a report. -/
theorem Report.uniquely_readable_run :
    (∃ e, Evaluation.run { config := Preset.helloWorld.config } = .ok e ∧
      Report.part (CommandLine.run (some "trace") ["--program=hello-world", "--report"]).stderr =
        e.report.lines) ∧
      Report.opening ∉ (CommandLine.run none ["-vv"]).stderr := by
  obtain ⟨e, he, -, h⟩ := Report.uniquely_readable.2.2.2.2 (some "trace")
    ["--program=hello-world", "--report"] _ rfl
  obtain ⟨_, -, hopening, -⟩ := Report.uniquely_readable.2.2.2.2 none ["-vv"] _ rfl
  exact ⟨⟨e, he, (h rfl _).mpr rfl⟩, fun hmem => nomatch hopening.mp hmem⟩

end StaticInit
