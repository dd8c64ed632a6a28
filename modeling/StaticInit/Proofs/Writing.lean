import Mathlib.Algebra.GroupWithZero.Nat
import StaticInit.Proofs.Invocations

/-!
# Writing command lines

Every configuration can be asked for. A command line for it is written in pieces
(`Piece`), in any order: options with the values that the configuration has, and
flags. An option may be left out where its value goes without saying
(`Presumed`), and none is written twice (`Writes`).

* `Piece.group`, `Writes.spell`: what the pieces ask for;
* `Writes.given`, `Writes.answers`: that is the configuration, whatever was left out;
* `writes_everything`: nothing keeps a configuration from being written.
-/

namespace StaticInit

namespace Args

/-! ## Pieces -/

/-- What an option is written with for the configuration. -/
def Opt.written (c : Config) : Opt → String
  | .program =>
    match c.program with
    | .sum => "sum"
    | .helloWorld => "hello-world"
  | .overrideMode =>
    match c.mode with
    | .noOp => "no-op"
    | .chainThrough => "chain-through"
  | .order =>
    match c.order with
    | .counterFirst => "counter-first"
    | .sumFirst => "sum-first"
  | .seed => Decimal.signed c.seed
  | .input => Decimal.signed c.input
  | .warmup => Decimal.unsigned c.warmups

/-- What is asked for by it. -/
def Opt.asked (c : Config) : Opt → Request
  | .program => .program c.program
  | .overrideMode => .overrideMode c.mode
  | .order => .order c.order
  | .seed => .seed c.seed
  | .input => .input c.input
  | .warmup => .warmup c.warmups

/-- A part of a command line that is for one configuration. -/
inductive Piece where
  /-- An option, and its value as an argument of its own. -/
  | separate (o : Opt)
  /-- An option with its value attached. -/
  | attached (o : Opt)
  | report
  | verbose
  /-- Short flags for more of the log, one and `more` others behind one dash. -/
  | cluster (more : Nat)
deriving DecidableEq

namespace Piece

def arguments (c : Config) : Piece → List String
  | separate o => [o.spelling, o.written c]
  | attached o => [o.spelling ++ "=" ++ o.written c]
  | report => ["--report"]
  | verbose => ["--verbose"]
  | cluster more => [String.ofList ('-' :: List.replicate (more + 1) 'v')]

def requests (c : Config) : Piece → List Request
  | separate o | attached o => [o.asked c]
  | report => [.report]
  | verbose => [.verbose]
  | cluster more => List.replicate (more + 1) .verbose

/-- The option or flag of a piece, where it can be written only once. -/
def single? : Piece → Option Named
  | separate o | attached o => some (.opt o)
  | report => some (.flag .report)
  | verbose | cluster _ => none

/-- How many flags for more of the log the piece has. -/
def flags : Piece → Nat
  | verbose => 1
  | cluster more => more + 1
  | separate _ | attached _ | report => 0

end Piece

/-- The value of the option goes without saying: it is the one in the preset of the program. -/
def Presumed (c : Config) : Opt → Prop
  | .program => c.program = .sum
  | .overrideMode => c.mode = c.program.preset.config.mode
  | .order => c.order = .counterFirst
  | .seed => c.seed = c.program.preset.config.seed
  | .input => c.input = c.program.preset.config.input
  | .warmup => c.warmups = 0

/-- The pieces are for the configuration, for the report or not, and for `n` flags for more of
the log. -/
structure Writes (c : Config) (report : Bool) (n : Nat) (pieces : List Piece) : Prop where
  once : (pieces.filterMap Piece.single?).Nodup
  left_out : ∀ o, Named.opt o ∉ pieces.filterMap Piece.single? → Presumed c o
  report : .report ∈ pieces ↔ report = true
  flags : (pieces.map Piece.flags).sum = n

variable {c : Config} {report : Bool} {n : Nat} {pieces : List Piece} {o : Opt} {r : Request}

/-! ## What one piece asks for -/

theorem Opt.value_written (c : Config) (o : Opt) : o.Value (o.written c) (o.asked c) := by
  cases o with
  | program =>
    simp only [written, asked]
    cases c.program <;> constructor
  | overrideMode =>
    simp only [written, asked]
    cases c.mode <;> constructor
  | order =>
    simp only [written, asked]
    cases c.order <;> constructor
  | seed => exact .seed (Numeral.denotes_signed c.seed)
  | input => exact .input (Numeral.denotes_signed c.input)
  | warmup => exact .warmup (Numeral.denotes_unsigned c.warmups)

theorem head?_unsigned (x : UInt32) : (Decimal.unsigned x).toList.head? ≠ some '-' := by
  intro h
  have hdigit := (Numeral.digits_repr x.toNat).isDigit '-' (List.mem_of_head? h)
  exact absurd hdigit (by decide)

namespace Piece

theorem group (c : Config) (p : Piece) : Group (p.arguments c) (p.requests c) := by
  cases p with
  | separate o =>
    refine .separate (Opt.value_written c o) ?_
    rintro rfl
    exact head?_unsigned c.warmups
  | attached o => exact .attached (Opt.value_written c o)
  | report => exact .report
  | verbose => exact .verbose
  | cluster more => exact .cluster more

theorem groups (c : Config) (pieces : List Piece) :
    Groups (pieces.flatMap (arguments c)) (pieces.flatMap (requests c)) := by
  induction pieces with
  | nil => exact .done
  | cons p pieces ih =>
    rw [List.flatMap_cons, List.flatMap_cons]
    exact .group (group c p) ih

theorem single?_of_mem {p : Piece} (h : r ∈ p.requests c) :
    p.single? = some r.named ∨ r = .verbose := by
  cases p with
  | separate o | attached o =>
    obtain rfl := List.mem_singleton.mp h
    exact .inl (congrArg some (Opt.value_written c o).named.symm)
  | report =>
    obtain rfl := List.mem_singleton.mp h
    exact .inl rfl
  | verbose => exact .inr (List.mem_singleton.mp h)
  | cluster more => exact .inr (List.eq_of_mem_replicate h)

theorem asked_mem {p : Piece} (h : p.single? = some (.opt o)) : o.asked c ∈ p.requests c := by
  cases p <;> cases h <;> exact List.mem_singleton_self _

theorem report_mem_iff {p : Piece} : .report ∈ p.requests c ↔ p = .report := by
  have hasked : ∀ o : Opt, o.asked c ≠ .report := fun o => by cases o <;> exact nofun
  cases p <;> simp [requests, (hasked _).symm]

theorem count_verbose (p : Piece) : (p.requests c).count .verbose = p.flags := by
  have hasked : ∀ o : Opt, o.asked c ≠ .verbose := fun o => (Opt.value_written c o).ne_verbose
  cases p <;> simp [requests, flags, hasked]

theorem noneTwice (c : Config) (p : Piece) : NoneTwice (p.requests c) := by
  cases p with
  | cluster more => exact List.pairwise_replicate.mpr (.inr fun _ => rfl)
  | _ => exact List.pairwise_singleton _ _

end Piece

/-! ## What all pieces ask for -/

namespace Writes

theorem noneTwice (h : Writes c report n pieces) :
    NoneTwice (pieces.flatMap (Piece.requests c)) := by
  refine List.pairwise_flatMap.mpr ⟨fun p _ => p.noneTwice c, ?_⟩
  -- Only flags for more of the log may come from two pieces: they have no `single?`.
  refine (List.pairwise_filterMap.mp h.once).imp fun hpq a ha b hb hnamed => ?_
  rcases Piece.single?_of_mem ha with hp | hverbose
  · rcases Piece.single?_of_mem hb with hq | rfl
    · exact absurd hnamed (hpq _ hp _ hq)
    · exact Request.named_eq_verbose_iff.mp hnamed
  · exact hverbose

theorem spell (h : Writes c report n pieces) :
    Spell (pieces.flatMap (Piece.arguments c)) (pieces.flatMap (Piece.requests c)) :=
  ⟨Piece.groups c pieces, h.noneTwice⟩

/-- A field has the value that was written for it, or the one that goes without saying. -/
theorem given (h : Writes c report n pieces) {α : Type} {make : α → Request} {default value : α}
    (hmake : ∀ x, (make x).named = .opt o) (hasked : o.asked c = make value)
    (hpresumed : Presumed c o → value = default) :
    Given make (pieces.flatMap (Piece.requests c)) default value := by
  by_cases ho : Named.opt o ∈ pieces.filterMap Piece.single?
  · obtain ⟨p, hp, hsingle⟩ := List.mem_filterMap.mp ho
    refine .inl (List.mem_flatMap.mpr ⟨p, hp, ?_⟩)
    rw [← hasked]
    exact Piece.asked_mem hsingle
  · refine .inr ⟨fun other hother => ?_, hpresumed (h.left_out o ho)⟩
    obtain ⟨p, hp, hmem⟩ := List.mem_flatMap.mp hother
    rcases Piece.single?_of_mem hmem with hsingle | hverbose
    · rw [hmake] at hsingle
      exact ho (List.mem_filterMap.mpr ⟨p, hp, hsingle⟩)
    · have hnamed := hmake other
      rw [hverbose] at hnamed
      cases hnamed

theorem answers (h : Writes c report n pieces) :
    Invocation.Answers { config := c, report, verbosity := min n 255 }
      (pieces.flatMap (Piece.requests c)) where
  program := h.given (o := .program) (fun _ => rfl) rfl id
  mode := h.given (o := .overrideMode) (fun _ => rfl) rfl id
  order := h.given (o := .order) (fun _ => rfl) rfl id
  seed := h.given (o := .seed) (fun _ => rfl) rfl id
  input := h.given (o := .input) (fun _ => rfl) rfl id
  warmups := h.given (o := .warmup) (fun _ => rfl) rfl id
  report := by
    simp only [List.mem_flatMap, Piece.report_mem_iff, exists_eq_right]
    exact h.report.symm
  verbosity := by
    rw [List.count_flatMap, ← h.flags]
    simp [Function.comp_def, Piece.count_verbose]

end Writes

/-- The pieces of a command line with no option left out. -/
def everything (report : Bool) (n : Nat) : List Piece :=
  (Opt.all.map .attached ++ if report then [.report] else []) ++ List.replicate n .verbose

theorem writes_everything (c : Config) (report : Bool) (n : Nat) :
    Writes c report n (everything report n) := by
  have hsingle : (everything report n).filterMap Piece.single? =
      Opt.all.map .opt ++ if report then [.flag .report] else [] := by
    rw [everything, List.filterMap_append, List.filterMap_replicate_of_none rfl, List.append_nil]
    cases report <;> rfl
  refine ⟨?_, fun o ho => absurd ?_ ho, ?_, ?_⟩
  · rw [hsingle]
    cases report <;> decide
  · rw [hsingle]
    cases report <;> cases o <;> decide
  · cases report <;> simp [everything, Opt.all]
  · cases report <;> simp [everything, Opt.all, Piece.flags]

/-- Every configuration can be written as a command line, and whatever is written for it is read
back: in any order of the pieces, with either spelling of each option, with the flags for more of
the log in any clusters, and with options left out that have the value they would have anyway. -/
theorem ofArguments_written (c : Config) (report : Bool) (n : Nat) :
    (∃ pieces, Writes c report n pieces) ∧
      ∀ pieces, Writes c report n pieces →
        Invocation.ofArguments (pieces.flatMap (Piece.arguments c)) =
          .ok { config := c, report, verbosity := min n 255 } := by
  refine ⟨⟨_, writes_everything c report n⟩, fun pieces h => ?_⟩
  have hinvocation : Invocation.ofRequests (pieces.flatMap (Piece.requests c)) =
      { config := c, report, verbosity := min n 255 } :=
    (Invocation.answers_ofRequests _).unique h.noneTwice h.answers
  rw [Invocation.ofArguments, read_eq_ok_iff.mpr h.spell, ← hinvocation]
  rfl

/-- Override and input are left out, since they are those of the preset. -/
theorem ofArguments_written_least :
    Invocation.ofArguments ["-vv", "--seed", "-2147483648", "--report", "--warmup=4294967295",
        "--verbose", "--order", "sum-first", "--program=hello-world"] =
      .ok {
        config := {
          seed := -2147483648, mode := .chainThrough, order := .sumFirst, warmups := 4294967295,
          program := .helloWorld }
        report := true
        verbosity := 3 } := by
  have hwrites : Writes {
      seed := -2147483648, mode := .chainThrough, order := .sumFirst, warmups := 4294967295,
      program := .helloWorld } true 3 [.cluster 1, .separate .seed, .report, .attached .warmup,
        .verbose, .separate .order, .attached .program] := by
    refine ⟨by decide, fun o ho => ?_, by decide, rfl⟩
    cases o with
    | overrideMode | input => rfl
    | _ => exact absurd (by decide) ho
  have hread := (ofArguments_written _ true 3).2 _ hwrites
  exact (congrArg Invocation.ofArguments (by decide +kernel)).trans hread

end Args

end StaticInit
