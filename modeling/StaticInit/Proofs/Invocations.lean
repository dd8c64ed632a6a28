import StaticInit.Proofs.Reading

/-!
# What a command line asks for

The invocation is the one that answers the requests. Each field of the
configuration is the value asked for, or where none is, the one it has in the
preset of the program (`Invocation.Answers`). The order of the requests is not
mentioned: where nothing is requested twice, one invocation at most answers
them (`Invocation.Answers.unique`).

* `given_settle`, `given_foldl`: each field after one request, and after a list
  of them;
* `Invocation.answers_ofRequests`: the requests that were read are answered;
* `Invocation.ofArguments_iff_spelled`: which lists of arguments are accepted, and
  what they come to.
-/

namespace StaticInit.Args

/-! ## One request after another -/

/-- The configuration after one request more. -/
def Request.settle (c : Config) (r : Request) : Config :=
  match r.setting? with
  | some s => c.set s
  | none => c

theorem build_eq_foldl (preset : Preset) (requests : List Request) :
    Config.build preset (requests.filterMap Request.setting?) =
      requests.foldl Request.settle preset.config := by
  rw [Config.build, List.foldl_filterMap]
  congr
  funext c r
  cases r <;> rfl

/-! ## Values asked for -/

section Given

variable {α : Type} {make : α → Request} {requests : List Request} {default value : α}

/-- The value is one asked for, or the default where none is asked for. -/
def Given (make : α → Request) (requests : List Request) (default value : α) : Prop :=
  make value ∈ requests ∨ (∀ other, make other ∉ requests) ∧ value = default

theorem Given.cons {r : Request} {between : α} (first : Given make [r] default between)
    (next : Given make requests between value) : Given make (r :: requests) default value := by
  rcases next with hvalue | ⟨hnone, rfl⟩
  · exact .inl (List.mem_cons_of_mem r hvalue)
  · rcases first with hvalue | ⟨hr, hdefault⟩
    · exact .inl (List.mem_cons.mpr (.inl (List.mem_singleton.mp hvalue)))
    · refine .inr ⟨fun other h => ?_, hdefault⟩
      rcases List.mem_cons.mp h with h | h
      · exact hr other (List.mem_singleton.mpr h)
      · exact hnone other h

/-- No two values are asked for where nothing is requested twice. -/
theorem Given.unique {a b : α} (ha : Given make requests default a) (hnone : NoneTwice requests)
    (hmake : ∀ {a b}, make a = make b → a = b) (hnamed : ∀ a b, (make a).named = (make b).named)
    (hb : Given make requests default b) : a = b := by
  rcases ha with ha | ⟨hna, rfl⟩
  · rcases hb with hb | ⟨hnb, -⟩
    · exact hmake (hnone.eq_of_named ha hb (hnamed a b))
    · exact absurd ha (hnb a)
  · rcases hb with hb | ⟨-, rfl⟩
    · exact absurd hb (hna b)
    · rfl

theorem given_foldl {get : Config → α}
    (hstep : ∀ c r, Given make [r] (get c) (get (r.settle c)))
    (requests : List Request) (c : Config) :
    Given make requests (get c) (get (requests.foldl Request.settle c)) := by
  induction requests generalizing c with
  | nil => exact .inr ⟨fun other => List.not_mem_nil, rfl⟩
  | cons r requests ih => exact (hstep c r).cons (ih _)

/-- The first value asked for, or the default, is a given one. -/
theorem given_findSome? {get? : Request → Option α} (hget : ∀ r x, get? r = some x ↔ r = make x)
    (requests : List Request) (default : α) :
    Given make requests default ((requests.findSome? get?).getD default) := by
  cases hfind : requests.findSome? get? with
  | none =>
    rw [List.findSome?_eq_none_iff] at hfind
    refine .inr ⟨fun other h => ?_, rfl⟩
    have hnone := hfind _ h
    rw [(hget _ other).mpr rfl] at hnone
    cases hnone
  | some x =>
    obtain ⟨r, hr, hx⟩ := List.exists_of_findSome?_eq_some hfind
    rw [(hget r x).mp hx] at hr
    exact .inl hr

/-- What one request does to each field that can be asked for. -/
theorem given_settle (c : Config) (r : Request) :
    Given .overrideMode [r] c.mode (r.settle c).mode ∧
    Given .order [r] c.order (r.settle c).order ∧
    Given .seed [r] c.seed (r.settle c).seed ∧
    Given .input [r] c.input (r.settle c).input ∧
    Given .warmup [r] c.warmups (r.settle c).warmups := by
  cases r <;> simp [Given, Request.settle, Request.setting?, Config.set]

end Given

/-! ## Invocations -/

/-- The invocation does what the requests ask for. -/
structure Invocation.Answers (i : Invocation) (requests : List Request) : Prop where
  program : Given .program requests .sum i.config.program
  mode : Given .overrideMode requests i.config.program.preset.config.mode i.config.mode
  order : Given .order requests .counterFirst i.config.order
  seed : Given .seed requests i.config.program.preset.config.seed i.config.seed
  input : Given .input requests i.config.program.preset.config.input i.config.input
  warmups : Given .warmup requests 0 i.config.warmups
  report : i.report = true ↔ .report ∈ requests
  verbosity : i.verbosity = min (requests.count .verbose) 255

namespace Invocation

variable {requests : List Request}

theorem given_program (requests : List Request) :
    Given .program requests .sum (program requests) := by
  refine given_findSome? (fun r p => ?_) requests Program.sum
  cases r <;> simp [Request.program?]

/-- No request changes the program once the preset is chosen. -/
theorem foldl_settle_program (requests : List Request) (c : Config) :
    (requests.foldl Request.settle c).program = c.program := by
  induction requests generalizing c with
  | nil => rfl
  | cons r requests ih =>
    rw [List.foldl_cons, ih]
    cases r <;> rfl

theorem answers_ofRequests (requests : List Request) : (ofRequests requests).Answers requests := by
  have hconfig : (ofRequests requests).config =
      requests.foldl Request.settle (program requests).preset.config := build_eq_foldl _ _
  have hprogram : (ofRequests requests).config.program = program requests := by
    rw [hconfig, foldl_settle_program]
    cases program requests <;> rfl
  have hpreset : (program requests).preset.config.order = .counterFirst ∧
      (program requests).preset.config.warmups = 0 := by
    cases program requests <;> exact ⟨rfl, rfl⟩
  have hgiven : ∀ {α} {make : α → Request} {get : Config → α},
      (∀ c r, Given make [r] (get c) (get (r.settle c))) →
      Given make requests (get (program requests).preset.config)
        (get (ofRequests requests).config) := by
    intro α make get hstep
    rw [hconfig]
    exact given_foldl hstep requests _
  exact {
    program := by
      rw [hprogram]
      exact given_program requests
    mode := by
      rw [hprogram]
      exact hgiven fun c r => (given_settle c r).1
    order := by
      rw [← hpreset.1]
      exact hgiven fun c r => (given_settle c r).2.1
    seed := by
      rw [hprogram]
      exact hgiven fun c r => (given_settle c r).2.2.1
    input := by
      rw [hprogram]
      exact hgiven fun c r => (given_settle c r).2.2.2.1
    warmups := by
      rw [← hpreset.2]
      exact hgiven fun c r => (given_settle c r).2.2.2.2
    report := by
      simp [ofRequests, requested, Request.named_eq_report_iff]
    verbosity := rfl }

theorem Answers.unique {i j : Invocation} (hnone : NoneTwice requests) (hi : i.Answers requests)
    (hj : j.Answers requests) : i = j := by
  have hprogram : i.config.program = j.config.program :=
    hi.program.unique hnone Request.program.inj (fun _ _ => rfl) hj.program
  obtain ⟨⟨seed, mode, order, warmups, input, program⟩, report, verbosity⟩ := i
  obtain ⟨⟨seed', mode', order', warmups', input', program'⟩, report', verbosity'⟩ := j
  obtain rfl : program = program' := hprogram
  obtain rfl : mode = mode' :=
    hi.mode.unique hnone Request.overrideMode.inj (fun _ _ => rfl) hj.mode
  obtain rfl : order = order' :=
    hi.order.unique hnone Request.order.inj (fun _ _ => rfl) hj.order
  obtain rfl : seed = seed' :=
    hi.seed.unique hnone Request.seed.inj (fun _ _ => rfl) hj.seed
  obtain rfl : input = input' :=
    hi.input.unique hnone Request.input.inj (fun _ _ => rfl) hj.input
  obtain rfl : warmups = warmups' :=
    hi.warmups.unique hnone Request.warmup.inj (fun _ _ => rfl) hj.warmups
  obtain rfl : report = report' := Bool.eq_iff_iff.mpr (hi.report.trans hj.report.symm)
  obtain rfl : verbosity = verbosity' := hi.verbosity.trans hj.verbosity.symm
  rfl

theorem ofArguments_eq_ok_iff {arguments : List String} {i : Invocation} :
    ofArguments arguments = .ok i ↔
      ∃ requests, read arguments = .ok requests ∧ ofRequests requests = i := by
  rw [ofArguments]
  cases read arguments <;> simp [Except.map]

theorem ofArguments_eq_error_iff {arguments : List String} {stop : Stop} :
    ofArguments arguments = .error stop ↔ read arguments = .error stop := by
  rw [ofArguments]
  cases read arguments <;> simp [Except.map]

/-- The command line accepts what spells requests of which none is made twice, and comes to the
one invocation that answers them. -/
theorem ofArguments_iff_spelled (arguments : List String) :
    ((∃ i, ofArguments arguments = .ok i) ↔ ∃ requests, Spell arguments requests) ∧
      ∀ i, ofArguments arguments = .ok i ↔
        ∃ requests, Spell arguments requests ∧ i.Answers requests := by
  have hok : ∀ i, ofArguments arguments = .ok i ↔
      ∃ requests, Spell arguments requests ∧ ofRequests requests = i := by
    intro i
    simp only [ofArguments_eq_ok_iff, read_eq_ok_iff]
  refine ⟨?_, fun i => ?_⟩
  · simp only [hok]
    constructor
    · rintro ⟨_, requests, hspell, -⟩
      exact ⟨requests, hspell⟩
    · rintro ⟨requests, hspell⟩
      exact ⟨_, requests, hspell, rfl⟩
  · rw [hok]
    constructor
    · rintro ⟨requests, hspell, rfl⟩
      exact ⟨requests, hspell, answers_ofRequests requests⟩
    · rintro ⟨requests, hspell, hi⟩
      exact ⟨requests, hspell, (answers_ofRequests requests).unique hspell.noneTwice hi⟩

example : ofArguments ["--input", "-3", "-vv", "--program=hello-world", "--"] =
    .ok {
      config := { mode := .chainThrough, program := .helloWorld, input := -3 }
      report := false
      verbosity := 2 } := rfl

end Invocation

end StaticInit.Args
