import Mathlib.Data.Set.Basic
import StaticInit.Proofs.Effects

/-!
# Objects that are never named together

Take a set of names such that every line of a script that mentions one of them
mentions no others. Then the lines over these names run as if they were alone:
they get the same answers, and leave the same objects under the names
(`Store.run_over`). There is nothing but the names through which one line could
reach another.

Two stores that agree on the names in question are told apart by no line over
them (`Agree.line`), and a line over other names keeps the agreement
(`Agree.line_left`); the rest is an induction over the script.
-/

namespace StaticInit.Script

/-- A line of a script with the names in it. One that cannot be read may mention any. -/
inductive Entry where
  | step (step : Step)
  | unreadable (names : List String)
deriving DecidableEq

namespace Entry

def line : Entry → Line
  | .step s => some s
  | .unreadable _ => none

def names : Entry → List String
  | .step s => s.names
  | .unreadable names => names

/-- Whether the line mentions one of the names in `K`. -/
def meets (K : Set String) [DecidablePred (· ∈ K)] (e : Entry) : Bool := e.names.any (· ∈ K)

end Entry

/-- Two stores have the same objects under the names in `K`. -/
def Agree (K : Set String) (s t : Store) : Prop := ∀ name ∈ K, s.get? name = t.get? name

namespace Store

theorem get?_insertAll_congr {s t : Store} {name : String} (h : s.get? name = t.get? name)
    (changes : List (String × Object)) :
    (s.insertAll changes).get? name = (t.insertAll changes).get? name := by
  induction changes generalizing s t with
  | nil => exact h
  | cons c changes ih =>
    rw [insertAll_cons, insertAll_cons]
    exact ih (by rw [get?_insert, get?_insert, h])

theorem get?_insertAll_of_not_mem {changes : List (String × Object)} {name : String}
    (h : ∀ c ∈ changes, c.1 ≠ name) (s : Store) :
    (s.insertAll changes).get? name = s.get? name := by
  induction changes generalizing s with
  | nil => rfl
  | cons c changes ih =>
    rw [insertAll_cons, ih (fun c' hc' => h c' (List.mem_cons_of_mem c hc')), get?_insert,
      if_neg (h c List.mem_cons_self).symm]

/-- A step leaves alone every name that it does not mention. -/
theorem get?_step {step : Step} {name : String} (h : name ∉ step.names) (s : Store) :
    (s.step step).2.get? name = s.get? name := by
  cases heffect : step.effect? s.get? with
  | none => rw [step_of_misfit heffect]
  | some effect =>
    obtain ⟨o, -, hstep⟩ := step_of_effect? heffect
    rw [hstep]
    refine get?_insertAll_of_not_mem (fun c hc hname => h ?_) s
    exact hname ▸ (Step.shape_of_effect? heffect).mem_names hc

end Store

namespace Agree

variable {K : Set String} {s t : Store}

theorem refl (K : Set String) (s : Store) : Agree K s s := fun _ _ => rfl

/-- Where two stores agree on the names of a step, the step is answered alike and
the stores agree on as much as before. -/
theorem step {step : Step} (h : Agree K s t) (hnames : ∀ name ∈ step.names, name ∈ K) :
    (s.step step).1 = (t.step step).1 ∧ Agree K (s.step step).2 (t.step step).2 := by
  have heffects : step.effect? s.get? = step.effect? t.get? :=
    Step.effect?_congr fun name hname => h name (hnames name hname)
  cases heffect : step.effect? s.get? with
  | none =>
    rw [Store.step_of_misfit heffect, Store.step_of_misfit (heffects ▸ heffect)]
    exact ⟨rfl, h⟩
  | some effect =>
    obtain ⟨o, ho, hs⟩ := Store.step_of_effect? heffect
    obtain ⟨o', ho', ht⟩ := Store.step_of_effect? (heffects ▸ heffect)
    have hid : s.get? step.id = t.get? step.id := h _ (hnames _ List.mem_cons_self)
    rw [Store.get?_insertAll_congr hid, ho'] at ho
    obtain rfl := Option.some.inj ho
    rw [hs, ht]
    exact ⟨rfl, fun name hname => Store.get?_insertAll_congr (h name hname) _⟩

theorem line {e : Entry} (h : Agree K s t) (hnames : ∀ name ∈ e.names, name ∈ K) :
    (s.line e.line).1 = (t.line e.line).1 ∧ Agree K (s.line e.line).2 (t.line e.line).2 := by
  cases e with
  | step step => exact h.step hnames
  | unreadable names => exact ⟨rfl, h⟩

theorem line_left {e : Entry} (h : Agree K s t) (hnames : ∀ name ∈ e.names, name ∉ K) :
    Agree K (s.line e.line).2 t := by
  cases e with
  | step step =>
    intro name hname
    rw [← h name hname]
    exact Store.get?_step (fun hmem => hnames name hmem hname) s
  | unreadable names => exact h

end Agree

namespace Store

/-- The answers to the lines over `K`, out of the answers to all. -/
def answersOver (K : Set String) [DecidablePred (· ∈ K)] (entries : List Entry)
    (answers : List Answer) : List Answer :=
  ((entries.zip answers).filter (·.1.meets K)).map Prod.snd

variable {K : Set String} [DecidablePred (· ∈ K)]

theorem answersOver_cons (e : Entry) (entries : List Entry) (a : Answer) (answers : List Answer) :
    answersOver K (e :: entries) (a :: answers) =
      if e.meets K then a :: answersOver K entries answers else answersOver K entries answers := by
  rw [answersOver, List.zip_cons_cons, List.filter_cons]
  cases e.meets K <;> rfl

theorem run_agree {s t : Store} {entries : List Entry}
    (hK : ∀ e ∈ entries, e.meets K = true → ∀ name ∈ e.names, name ∈ K) (h : Agree K s t) :
    (t.run ((entries.filter (·.meets K)).map Entry.line)).1 =
        answersOver K entries (s.run (entries.map Entry.line)).1 ∧
      Agree K (s.run (entries.map Entry.line)).2
        (t.run ((entries.filter (·.meets K)).map Entry.line)).2 := by
  induction entries generalizing s t with
  | nil => exact ⟨rfl, h⟩
  | cons e entries ih =>
    have hrest := fun e' he' => hK e' (List.mem_cons_of_mem e he')
    rw [List.filter_cons, List.map_cons, run_cons s, answersOver_cons]
    by_cases he : e.meets K = true
    · obtain ⟨hanswer, hagree⟩ := h.line (hK e List.mem_cons_self he)
      obtain ⟨hanswers, hlast⟩ := ih hrest hagree
      rw [if_pos he, if_pos he, List.map_cons, run_cons, hanswers, hanswer]
      exact ⟨rfl, hlast⟩
    · have hother : ∀ name ∈ e.names, name ∉ K := by simpa [Entry.meets] using he
      rw [if_neg he, if_neg he]
      exact ih hrest (h.line_left hother)

/-- Where every line that mentions a name in `K` mentions no others, the lines
over `K` get the answers they would get on their own, and leave the same objects
under the names in `K`. -/
theorem run_over {entries : List Entry}
    (hK : ∀ e ∈ entries, e.meets K = true → ∀ name ∈ e.names, name ∈ K) (store : Store) :
    (store.run ((entries.filter (·.meets K)).map Entry.line)).1 =
        answersOver K entries (store.run (entries.map Entry.line)).1 ∧
      ∀ name ∈ K, (store.run (entries.map Entry.line)).2.get? name =
        (store.run ((entries.filter (·.meets K)).map Entry.line)).2.get? name :=
  run_agree hK (Agree.refl K store)

/-- An instance moves its static state on, while an evaluation runs and a line is
refused in between. -/
def mixed : List Entry :=
  [.step ⟨"s", .new .statics⟩, .step ⟨"e", .new (.evaluation {})⟩,
    .step ⟨"d", .new (.derived .chainThrough)⟩, .step ⟨"d", .incr (some "s")⟩,
    .unreadable ["s"], .step ⟨"e", .operate .value⟩, .step ⟨"d", .incr (some "s")⟩]

theorem run_over_mixed :
    (∀ e ∈ mixed, e.meets {n | n = "d" ∨ n = "s"} = true →
        ∀ name ∈ e.names, name ∈ ({n | n = "d" ∨ n = "s"} : Set String)) ∧
      (empty.run (mixed.map Entry.line)).2.get? "s" = some (.statics { counter := 2 }) ∧
      (empty.run ((mixed.filter (·.meets {n | n = "d" ∨ n = "s"})).map Entry.line)).2.get? "s" =
        some (.statics { counter := 2 }) := by
  have hK : ∀ e ∈ mixed, e.meets {n | n = "d" ∨ n = "s"} = true →
      ∀ name ∈ e.names, name ∈ ({n | n = "d" ∨ n = "s"} : Set String) := by decide
  have hlast : (empty.run (mixed.map Entry.line)).2.get? "s" =
      some (.statics { counter := 2 }) := by decide
  exact ⟨hK, hlast, (run_over hK empty).2 "s" (.inr rfl) ▸ hlast⟩

end Store

end StaticInit.Script
