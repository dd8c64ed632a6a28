import StaticInit.Proofs.History
import StaticInit.Proofs.Runs

/-!
# Looks at the state of an evaluation

An evaluation lends its static state out, to be looked at between runs. Three of
the four looks change nothing. The fourth fixes the derived sum, which is harmless
after the first run but not before it: the sum is then taken from a counter that
is not seeded yet, and every run answers with it (`calls_waiting`).

So the runs do not notice the looks between them in exactly four cases
(`looks_unnoticed_iff`): nothing is run, the sum is not fixed ahead of the first
run, the order of the configuration has the sum first anyway, or the counter
comes back to 0 by the time the sum is due. `early_sum_noticed` is a case outside.
-/

namespace StaticInit.Evaluation

/-- What can be read from a static state that is lent out. -/
inductive Look where
  | counter
  | seeded
  | readSum
  /-- Reads the derived sum, and computes it where there is none yet. -/
  | fixSum
deriving DecidableEq

def look (e : Evaluation) : Look → Statics.Answer × Evaluation
  | .counter => (.number e.statics.counter, e)
  | .seeded => (.flag e.statics.seeded, e)
  | .readSum => (.sum e.statics.readSum, e)
  | .fixSum => (.number e.fixSum.1, e.fixSum.2)

/-- A run of an evaluation, or a look at its static state. -/
inductive Call where
  | ask (want : Want)
  | look (l : Look)
deriving DecidableEq

def Call.want? : Call → Option Want
  | .ask want => some want
  | .look _ => none

inductive Reply where
  | ran (answer : Answer)
  | seen (answer : Statics.Answer)

def Reply.answer? : Reply → Option Answer
  | .ran answer => some answer
  | .seen _ => none

def call (e : Evaluation) : Call → Except Fault (Reply × Evaluation)
  | .ask want => (e.ask want).map fun (answer, e') => (.ran answer, e')
  | .look l => .ok (.seen (e.look l).1, (e.look l).2)

/-- The replies to several calls in turn, and the evaluation after them. -/
def calls (e : Evaluation) : List Call → Except Fault (List Reply × Evaluation)
  | [] => .ok ([], e)
  | c :: cs => do
    let (reply, e') ← e.call c
    let (replies, last) ← e'.calls cs
    return (reply :: replies, last)

/-- The calls that are runs. -/
def wants (cs : List Call) : List Want := cs.filterMap Call.want?

/-- The replies that are answers of runs. -/
def answers (replies : List Reply) : List Answer := replies.filterMap Reply.answer?

@[simp] theorem wants_ask (want : Want) (cs : List Call) :
    wants (.ask want :: cs) = want :: wants cs := rfl

@[simp] theorem wants_look (l : Look) (cs : List Call) : wants (.look l :: cs) = wants cs := rfl

@[simp] theorem answers_ran (a : Answer) (replies : List Reply) :
    answers (.ran a :: replies) = a :: answers replies := rfl

@[simp] theorem answers_seen (a : Statics.Answer) (replies : List Reply) :
    answers (.seen a :: replies) = answers replies := rfl

/-! ## Looks before and after the first run -/

theorem look_settled (c : Config) (sum : Int32) (l : Look) :
    ((settled c sum).look l).2 = settled c sum := by
  cases l <;> rfl

/-- A look fixes the derived sum at ten above 0, unless it is fixed already. -/
theorem look_waiting (c : Config) (early : Option Int32) (l : Look) :
    ((waiting c early).look l).2 =
      waiting c (if l = .fixSum then some (early.getD 10) else early) := by
  cases l with
  | fixSum => simp [look, fixSum, waiting, Statics.fixSum_eq]
  | _ => rfl

theorem calls_look {e last : Evaluation} {replies : List Reply} {cs : List Call} {l : Look}
    (h : (e.look l).2.calls cs = .ok (replies, last)) :
    e.calls (.look l :: cs) = .ok (.seen (e.look l).1 :: replies, last) := by
  simp only [calls, call, Fault.bind_ok, h]
  rfl

theorem calls_ask {e last : Evaluation} {r : Run} {replies : List Reply} {cs : List Call}
    (hr : e.run = .ok r) (h : r.evaluation.calls cs = .ok (replies, last)) (want : Want) :
    e.calls (.ask want :: cs) = .ok (.ran (want.answer r.report) :: replies, last) := by
  simp only [calls, call, ask_of_run hr, Except.map, Fault.bind_ok, h]
  rfl

theorem calls_settled (c : Config) (sum : Int32) (cs : List Call) :
    ∃ replies, (settled c sum).calls cs = .ok (replies, settled c sum) ∧
      answers replies = (wants cs).map fun want => want.answer (c.report sum []) := by
  induction cs with
  | nil => exact ⟨[], rfl, rfl⟩
  | cons call cs ih =>
    obtain ⟨replies, hcalls, hanswers⟩ := ih
    cases call with
    | ask want =>
      refine ⟨_, calls_ask (run_settled c sum) hcalls want, ?_⟩
      rw [answers_ran, hanswers, wants_ask, List.map_cons]
    | look l =>
      refine ⟨_, calls_look (by rw [look_settled]; exact hcalls), ?_⟩
      rw [answers_seen, hanswers, wants_look]

/-- The sum that is fixed by the time of the first run. -/
def earlySum : Option Int32 → List Call → Option Int32
  | early, .look l :: cs => earlySum (if l = .fixSum then some (early.getD 10) else early) cs
  | early, _ => early

/-- Runs with looks between them answer from the sum that the looks before the
first run have fixed, or else from that of the static phase. -/
theorem calls_waiting (c : Config) (early : Option Int32) (cs : List Call) :
    ∃ replies last, (waiting c early).calls cs = .ok (replies, last) ∧
      answers replies = answersWith c ((earlySum early cs).getD c.derivedSum) (wants cs) := by
  induction cs generalizing early with
  | nil => exact ⟨[], _, rfl, rfl⟩
  | cons call cs ih =>
    cases call with
    | ask want =>
      obtain ⟨replies, hcalls, hanswers⟩ := calls_settled c (early.getD c.derivedSum) cs
      refine ⟨_, _, calls_ask (run_waiting c early) hcalls want, ?_⟩
      rw [answers_ran, hanswers]
      rfl
    | look l =>
      obtain ⟨replies, last, hcalls, hanswers⟩ :=
        ih (if l = .fixSum then some (early.getD 10) else early)
      refine ⟨_, _, calls_look (by rw [look_waiting]; exact hcalls), ?_⟩
      rw [answers_seen, hanswers]
      rfl

/-! ## What the runs notice -/

theorem earlySum_some (sum : Int32) (cs : List Call) : earlySum (some sum) cs = some sum := by
  induction cs with
  | nil => rfl
  | cons call cs ih =>
    cases call with
    | ask want => rfl
    | look l => rw [earlySum, Option.getD_some, ite_self, ih]

/-- Whether the derived sum is fixed by a look ahead of the first run. -/
def fixedAhead (cs : List Call) : Prop := .look .fixSum ∈ cs.takeWhile (·.want?.isNone)

instance (cs : List Call) : Decidable (fixedAhead cs) :=
  inferInstanceAs (Decidable (_ ∈ _))

theorem fixedAhead_look (l : Look) (cs : List Call) :
    fixedAhead (.look l :: cs) ↔ l = .fixSum ∨ fixedAhead cs := by
  rw [fixedAhead, List.takeWhile_cons_of_pos rfl, List.mem_cons, Call.look.injEq, eq_comm,
    fixedAhead]

theorem earlySum_none (cs : List Call) :
    earlySum none cs = if fixedAhead cs then some 10 else none := by
  induction cs with
  | nil => rfl
  | cons call cs ih =>
    cases call with
    | ask want => rfl
    | look l =>
      simp only [earlySum, fixedAhead_look]
      by_cases hl : l = .fixSum
      · simp [hl, earlySum_some]
      · simp [hl, ih]

/-- The first of the answers tells the sums apart. -/
theorem answersWith_inj {c : Config} {a b : Int32} {wants : List Want} (hw : wants ≠ [])
    (h : answersWith c a wants = answersWith c b wants) : a = b := by
  cases wants with
  | nil => exact absurd rfl hw
  | cons want wants =>
    have hresult : c.input + a = c.input + b := by
      cases want with
      | value => exact Answer.value.inj (List.cons.inj h).1
      | report => exact congrArg Report.result (Answer.report.inj (List.cons.inj h).1)
    exact (Int32.add_right_inj c.input).mp hresult

theorem derivedSum_eq_ten_iff (c : Config) :
    c.derivedSum = 10 ↔ c.order = .sumFirst ∨ c.finalCounter = 0 := by
  cases ho : c.order <;> simp [Config.derivedSum, ho]

theorem Want.answer_eq_report {want : Want} {r r' : Report} (h : want.answer r = .report r') :
    r' = r := by
  cases want with
  | value => cases h
  | report => exact (Answer.report.inj h).symm

theorem sumDerived_not_mem_closingPhases {p : Program} {result seed sum : Int32} :
    .sumDerived seed sum ∉ p.closingPhases result := by
  cases p <;> simp [Program.closingPhases]

/-- Without a sum fixed ahead, a report derives its sum from the counter it names. -/
theorem sumDerived_of_mem_answersWith {c : Config} {wants : List Want} {r : Report}
    {seed sum : Int32} (hr : .report r ∈ answersWith c c.derivedSum wants)
    (hs : .sumDerived seed sum ∈ r.phases) : sum = Series.sumFrom seed := by
  cases wants with
  | nil => cases hr
  | cons want wants =>
    rcases List.mem_cons.mp hr with hr | hr
    · obtain rfl := Want.answer_eq_report hr.symm
      rcases List.mem_append.mp hs with hs | hs
      · obtain ⟨rfl, rfl⟩ := Config.sumDerived_mem_openingPhases.mp hs
        exact c.derivedSum_eq_sumFrom
      · exact absurd hs sumDerived_not_mem_closingPhases
    · obtain ⟨want', -, hr⟩ := List.mem_map.mp hr
      obtain rfl := Want.answer_eq_report hr
      exact absurd hs sumDerived_not_mem_closingPhases

/-- Exactly when the runs between the looks answer as they would on their own, and
every report derives its sum from the counter it names. -/
theorem looks_unnoticed_iff (c : Config) (cs : List Call) :
    ∃ replies last alone last', (fresh c).calls cs = .ok (replies, last) ∧
      (fresh c).asks (wants cs) = .ok (alone, last') ∧
      ((answers replies = alone ∧ ∀ r seed sum, .report r ∈ answers replies →
          .sumDerived seed sum ∈ r.phases → sum = Series.sumFrom seed) ↔
        wants cs = [] ∨ ¬ fixedAhead cs ∨ c.order = .sumFirst ∨ c.finalCounter = 0) := by
  obtain ⟨replies, last, hcalls, hanswers⟩ := calls_waiting c none cs
  refine ⟨replies, last, _, _, hcalls, asks_fresh c (wants cs), ?_⟩
  rw [hanswers, earlySum_none, ← derivedSum_eq_ten_iff]
  constructor
  · rintro ⟨heq, -⟩
    by_cases hw : wants cs = []
    · exact .inl hw
    by_cases hf : fixedAhead cs
    · rw [if_pos hf] at heq
      exact .inr (.inr (answersWith_inj hw heq).symm)
    · exact .inr (.inl hf)
  · intro h
    have heq : answersWith c ((if fixedAhead cs then some 10 else none).getD c.derivedSum)
        (wants cs) = answersWith c c.derivedSum (wants cs) := by
      rcases h with h | h | h
      · rw [h]; rfl
      · rw [if_neg h]; rfl
      · rw [h]; split <;> rfl
    rw [heq]
    exact ⟨rfl, fun r seed sum hr hs => sumDerived_of_mem_answersWith hr hs⟩

/-- A sum fixed ahead of the first run is ten above 0, and is the one that the run
reports beside the counter 100. -/
theorem early_sum_noticed :
    ∃ replies last alone last',
      (fresh {}).calls [.look .fixSum, .ask .report, .ask .value] = .ok (replies, last) ∧
      (fresh {}).asks [.report, .value] = .ok (alone, last') ∧
      alone.getLast? = some (.value 111) ∧
      (answers replies).getLast? = some (.value 11) ∧
      ∃ r, .report r ∈ answers replies ∧ .sumDerived 100 10 ∈ r.phases := by
  refine ⟨_, _, _, _, rfl, rfl, rfl, rfl, _, List.mem_cons_self, ?_⟩
  exact List.mem_cons_of_mem _ List.mem_cons_self

end StaticInit.Evaluation
