import Mathlib.Data.List.Induction
import Mathlib.Data.List.Nodup
import StaticInit.Proofs.Invocations

/-!
# The last setting of a field

A configuration is built from a preset by settings, one after another. Each field
ends with what the last setting for it says, or as the preset has it
(`Config.entry_build`). So the order of two settings matters only where they are
for one field (`Config.build_congr`), and no order matters where no field is set
twice (`Config.build_perm`).

A command line supplies an option once or not at all. Its configuration can be put
together in a fixed order (`Supplied.config`): the preset of the program, then the
options that may be missing, then those that always have a value because they
have a default. That is the configuration of the invocation
(`Supplied.config_ofRequests`), and it is built by the settings of the supplied
options in any order (`Supplied.build_eq_config`).
-/

namespace StaticInit

/-- The fields of a configuration. -/
inductive Field where
  | seed
  | mode
  | order
  | warmups
  | input
  | program
deriving DecidableEq

/-- The field that a setting is for. -/
def Setting.field : Setting → Field
  | .seed _ => .seed
  | .mode _ => .mode
  | .order _ => .order
  | .warmups _ => .warmups
  | .input _ => .input
  | .program _ => .program

namespace Config

variable {preset : Preset} {settings others : List Setting} {f : Field}

/-- What a field holds, as the setting that would make it so. -/
def entry (c : Config) : Field → Setting
  | .seed => .seed c.seed
  | .mode => .mode c.mode
  | .order => .order c.order
  | .warmups => .warmups c.warmups
  | .input => .input c.input
  | .program => .program c.program

theorem eq_of_entry_eq {c d : Config} (h : ∀ f, c.entry f = d.entry f) : c = d := by
  obtain ⟨seed, mode, order, warmups, input, program⟩ := c
  obtain ⟨seed', mode', order', warmups', input', program'⟩ := d
  obtain rfl : seed = seed' := Setting.seed.inj (h .seed)
  obtain rfl : mode = mode' := Setting.mode.inj (h .mode)
  obtain rfl : order = order' := Setting.order.inj (h .order)
  obtain rfl : warmups = warmups' := Setting.warmups.inj (h .warmups)
  obtain rfl : input = input' := Setting.input.inj (h .input)
  obtain rfl : program = program' := Setting.program.inj (h .program)
  rfl

/-- A setting writes its own field and no other. -/
theorem entry_set (c : Config) (s : Setting) (f : Field) :
    (c.set s).entry f = if s.field = f then s else c.entry f := by
  cases s <;> cases f <;> rfl

/-! ## Settings in turn -/

theorem build_concat (preset : Preset) (settings : List Setting) (s : Setting) :
    build preset (settings ++ [s]) = (build preset settings).set s := by
  rw [build, List.foldl_append]
  rfl

/-- By induction from the end, where the last setting stands. -/
theorem entry_build (preset : Preset) (settings : List Setting) (f : Field) :
    (build preset settings).entry f =
      (settings.filter (·.field = f)).getLast?.getD (preset.config.entry f) := by
  induction settings using List.reverseRecOn with
  | nil => rfl
  | append_singleton settings s ih =>
    rw [build_concat, entry_set, List.filter_append]
    by_cases hs : s.field = f
    · have hlast : [s].filter (·.field = f) = [s] := by simp [hs]
      rw [if_pos hs, hlast, List.getLast?_concat, Option.getD_some]
    · have hnone : [s].filter (·.field = f) = [] := by simp [hs]
      rw [if_neg hs, hnone, List.append_nil, ih]

/-- Settings that agree field by field build one configuration. -/
theorem build_congr (preset : Preset)
    (h : ∀ f, settings.filter (·.field = f) = others.filter (·.field = f)) :
    build preset settings = build preset others := by
  refine eq_of_entry_eq fun f => ?_
  rw [entry_build, entry_build, h f]

/-- Where no field is set twice, the last setting of a field is the only one. -/
theorem getLast?_filter_eq_some_iff (once : (settings.map Setting.field).Nodup) {s : Setting} :
    (settings.filter (·.field = f)).getLast? = some s ↔ s ∈ settings ∧ s.field = f := by
  have hmem : ∀ t, t ∈ settings.filter (·.field = f) ↔ t ∈ settings ∧ t.field = f :=
    fun t => by simp
  constructor
  · intro h
    exact (hmem s).mp (List.mem_of_getLast? h)
  · intro hs
    have hne : settings.filter (·.field = f) ≠ [] :=
      List.ne_nil_of_mem ((hmem s).mpr hs)
    have hlast := (hmem _).mp (List.getLast_mem hne)
    have hsame : (settings.filter (·.field = f)).getLast hne = s :=
      List.inj_on_of_nodup_map once hlast.1 hs.1 (hlast.2.trans hs.2.symm)
    rw [List.getLast?_eq_some_getLast hne, hsame]

theorem build_perm (preset : Preset) (h : settings.Perm others)
    (once : (others.map Setting.field).Nodup) :
    build preset settings = build preset others := by
  have once' : (settings.map Setting.field).Nodup := (h.map _).nodup_iff.mpr once
  refine eq_of_entry_eq fun f => ?_
  have hlast : (settings.filter (·.field = f)).getLast? =
      (others.filter (·.field = f)).getLast? := by
    ext s
    rw [getLast?_filter_eq_some_iff once, getLast?_filter_eq_some_iff once', h.mem_iff]
  rw [entry_build, entry_build, hlast]

/-- The settings of other fields make no difference to a field. -/
theorem entry_build_cons_of_ne {before after : List Setting} {s : Setting} (hs : s.field ≠ f) :
    (build preset (before ++ s :: after)).entry f = (build preset (before ++ after)).entry f := by
  have hfilter : (before ++ s :: after).filter (·.field = f) =
      (before ++ after).filter (·.field = f) := by
    simp [List.filter_append, hs]
  rw [entry_build, entry_build, hfilter]

end Config

/-! ## What a command line supplies -/

namespace Args

/-- What is supplied for each option, if anything is. -/
structure Supplied where
  program? : Option Program
  mode? : Option Override
  seed? : Option Int32
  input? : Option Int32
  order? : Option Order
  warmups? : Option UInt32

end Args

/-- Makes a setting where there is one. -/
def Config.setAny (c : Config) : Option Setting → Config
  | some s => c.set s
  | none => c

namespace Args.Supplied

/-- The program that is run. -/
def program (s : Supplied) : Program := s.program?.getD .sum

/-- The options in a fixed order, behind the preset of the program. Order and warmups are set even
where they are left out. -/
def config (s : Supplied) : Config :=
  let preset := s.program.preset.config
  let moded := preset.setAny (s.mode?.map .mode)
  let seeded := moded.setAny (s.seed?.map .seed)
  let filled := seeded.setAny (s.input?.map .input)
  (filled.set (.order (s.order?.getD .counterFirst))).set (.warmups (s.warmups?.getD 0))

/-- The settings of what is supplied beside the program. -/
def settings (s : Supplied) : List Setting :=
  (s.mode?.map .mode).toList ++ (s.seed?.map .seed).toList ++ (s.input?.map .input).toList ++
    (s.order?.map .order).toList ++ (s.warmups?.map .warmups).toList

/-- The first request for each option. -/
def ofRequests (requests : List Request) : Supplied where
  program? := requests.findSome? fun | .program p => some p | _ => none
  mode? := requests.findSome? fun | .overrideMode m => some m | _ => none
  seed? := requests.findSome? fun | .seed n => some n | _ => none
  input? := requests.findSome? fun | .input n => some n | _ => none
  order? := requests.findSome? fun | .order o => some o | _ => none
  warmups? := requests.findSome? fun | .warmup n => some n | _ => none

/-! ### No field twice -/

theorem sublist_field {α : Type} (make : α → Setting) {f : Field} (h : ∀ x, (make x).field = f)
    (x? : Option α) : ((x?.map make).toList.map Setting.field).Sublist [f] := by
  cases x? with
  | none => exact List.nil_sublist [f]
  | some x => simp [h x]

theorem once_settings (s : Supplied) : (s.settings.map Setting.field).Nodup := by
  have hfields : (s.settings.map Setting.field).Sublist
      ([.mode] ++ [.seed] ++ [.input] ++ [.order] ++ [.warmups]) := by
    simp only [settings, List.map_append]
    have hmode := sublist_field .mode (fun _ => rfl) s.mode?
    have hseed := sublist_field .seed (fun _ => rfl) s.seed?
    have hinput := sublist_field .input (fun _ => rfl) s.input?
    have horder := sublist_field .order (fun _ => rfl) s.order?
    have hwarmups := sublist_field .warmups (fun _ => rfl) s.warmups?
    exact (((hmode.append hseed).append hinput).append horder).append hwarmups
  exact hfields.nodup (by decide)

/-! ### The fixed order and any other -/

theorem foldl_toList (c : Config) (s? : Option Setting) :
    s?.toList.foldl Config.set c = c.setAny s? := by
  cases s? <;> rfl

/-- What no setting of a kind changes is not changed where one is left out either. -/
theorem setAny_map {α β : Type} {make : α → Setting} {get : Config → β}
    (h : ∀ c x, get (c.set (make x)) = get c) (c : Config) (x? : Option α) :
    get (c.setAny (x?.map make)) = get c := by
  cases x? with
  | none => rfl
  | some x => exact h c x

/-- An order that is left out is the one the configuration has anyway. -/
theorem setAny_order {c : Config} (h : c.order = .counterFirst) (order? : Option Order) :
    c.setAny (order?.map .order) = c.set (.order (order?.getD .counterFirst)) := by
  cases order? with
  | none =>
    rw [Option.getD_none, ← h]
    rfl
  | some order => rfl

theorem setAny_warmups {c : Config} (h : c.warmups = 0) (warmups? : Option UInt32) :
    c.setAny (warmups?.map .warmups) = c.set (.warmups (warmups?.getD 0)) := by
  cases warmups? with
  | none =>
    rw [Option.getD_none, ← h]
    rfl
  | some warmups => rfl

theorem build_settings (s : Supplied) :
    Config.build s.program.preset s.settings = s.config := by
  have hkept : ∀ {β : Type} {get : Config → β}, (∀ c x, get (c.set (.mode x)) = get c) →
      (∀ c x, get (c.set (.seed x)) = get c) → (∀ c x, get (c.set (.input x)) = get c) →
      get (((s.program.preset.config.setAny (s.mode?.map .mode)).setAny
        (s.seed?.map .seed)).setAny (s.input?.map .input)) = get s.program.preset.config := by
    intro β get hmode hseed hinput
    rw [setAny_map hinput, setAny_map hseed, setAny_map hmode]
  have hpreset : s.program.preset.config.order = .counterFirst ∧
      s.program.preset.config.warmups = 0 := by
    cases s.program <;> exact ⟨rfl, rfl⟩
  simp only [Config.build, settings, List.foldl_append, foldl_toList, config]
  rw [setAny_order, setAny_warmups]
  · exact (hkept (fun _ _ => rfl) (fun _ _ => rfl) (fun _ _ => rfl)).trans hpreset.2
  · exact (hkept (fun _ _ => rfl) (fun _ _ => rfl) (fun _ _ => rfl)).trans hpreset.1

/-- What is supplied can be set in any order. -/
theorem build_eq_config (s : Supplied) {settings : List Setting}
    (h : settings.Perm s.settings) : Config.build s.program.preset settings = s.config := by
  rw [Config.build_perm _ h s.once_settings, build_settings]

/-! ### The requests of a command line -/

theorem config_eq (s : Supplied) :
    s.config = {
      seed := s.seed?.getD s.program.preset.config.seed
      mode := s.mode?.getD s.program.preset.config.mode
      order := s.order?.getD .counterFirst
      warmups := s.warmups?.getD 0
      input := s.input?.getD s.program.preset.config.input
      program := s.program } := by
  have hprogram : s.program.preset.config.program = s.program := by
    cases s.program <;> rfl
  unfold config
  cases s.mode? <;> cases s.seed? <;> cases s.input? <;>
    simp [Config.setAny, Config.set, hprogram]

theorem answers_ofRequests (requests : List Request) :
    Invocation.Answers { Invocation.ofRequests requests with config := (ofRequests requests).config }
      requests := by
  have hother := Invocation.answers_ofRequests requests
  refine { hother with program := ?_, mode := ?_, order := ?_, seed := ?_, input := ?_, warmups := ?_ }
  all_goals
    simp only [config_eq]
    refine given_findSome? (fun r x => ?_) requests _
    cases r <;> simp

/-- Where no option is given twice, the invocation has the configuration of what is supplied. -/
theorem config_ofRequests {requests : List Request} (h : NoneTwice requests) :
    (Invocation.ofRequests requests).config = (ofRequests requests).config :=
  congrArg Invocation.config
    ((Invocation.answers_ofRequests requests).unique h (answers_ofRequests requests))

end Args.Supplied

namespace Args

/-- Settings of one field come from requests for one option. -/
theorem Request.named_eq_of_field_eq {a b : Request} {s t : Setting} (ha : a.setting? = some s)
    (hb : b.setting? = some t) (hfield : s.field = t.field) : a.named = b.named := by
  cases a <;> cases ha <;> cases b <;> cases hb <;> first | rfl | cases hfield

theorem NoneTwice.once {requests : List Request} (h : NoneTwice requests) :
    ((requests.filterMap Request.setting?).map Setting.field).Nodup := by
  refine List.pairwise_map.mpr (List.pairwise_filterMap.mpr (h.imp ?_))
  intro a b hab s hs t ht hfield
  rw [hab (Request.named_eq_of_field_eq hs ht hfield)] at hs
  cases hs

end Args

/-- The last setting of each field decides it, over the whole of a configuration: so settings of
different fields can change places, a program comes without the override of its preset, and a
command line comes to what its options set, in any order. -/
theorem Config.last_setting_decides :
    (∀ preset settings f, (build preset settings).entry f =
      (settings.filter (·.field = f)).getLast?.getD (preset.config.entry f)) ∧
    (∀ preset settings others,
      (∀ f, settings.filter (·.field = f) = others.filter (·.field = f)) →
        build preset settings = build preset others) ∧
    (∀ preset before p after, (build preset (before ++ .program p :: after)).mode =
      (build preset (before ++ after)).mode) ∧
    (∀ s : Args.Supplied, ∀ settings, settings.Perm s.settings →
      build s.program.preset settings = s.config) ∧
    (∀ arguments requests, Args.Spell arguments requests →
      ∃ i, Args.Invocation.ofArguments arguments = .ok i ∧
        i.config = (Args.Supplied.ofRequests requests).config ∧
        ∀ settings, settings.Perm (requests.filterMap Args.Request.setting?) →
          i.config = build (Args.Invocation.program requests).preset settings) := by
  refine ⟨entry_build, fun preset _ _ h => build_congr preset h, fun preset before p after => ?_,
    fun s _ h => s.build_eq_config h, fun arguments requests h => ?_⟩
  · have hmode : (build preset (before ++ .program p :: after)).entry .mode =
        (build preset (before ++ after)).entry .mode :=
      entry_build_cons_of_ne nofun
    exact Setting.mode.inj hmode
  · refine ⟨Args.Invocation.ofRequests requests, ?_, Args.Supplied.config_ofRequests h.noneTwice,
      fun settings hsettings => ?_⟩
    · rw [Args.Invocation.ofArguments, Args.read_eq_ok_iff.mpr h]
      rfl
    · exact (build_perm _ hsettings h.noneTwice.once).symm

/-- A program set behind an override, a seed set twice, and a command line whose options are set
from the last to the first. -/
theorem Config.last_setting_decides_mixed :
    build .helloWorld [.seed 7, .mode .noOp, .program .helloWorld, .seed (-1)] =
        build .helloWorld [.program .helloWorld, .seed 7, .seed (-1), .mode .noOp] ∧
      build .helloWorld [.warmups 2, .seed 5] =
        Args.Supplied.config ⟨some .helloWorld, none, some 5, none, none, some 2⟩ ∧
      ∃ i, Args.Invocation.ofArguments ["--seed=5", "--program", "hello-world", "--warmup=2"] =
          .ok i ∧
        i.config = build .helloWorld [.warmups 2, .seed 5] := by
  have hspell : Args.Spell ["--seed=5", "--program", "hello-world", "--warmup=2"]
      [.seed 5, .program .helloWorld, .warmup 2] := Args.read_eq_ok_iff.mp rfl
  refine ⟨last_setting_decides.2.1 _ _ _ fun f => ?_,
    last_setting_decides.2.2.2.1
      ⟨some .helloWorld, none, some 5, none, none, some 2⟩ _ (List.Perm.swap _ _ []), ?_⟩
  · cases f <;> rfl
  · obtain ⟨i, hi, -, hsettings⟩ := last_setting_decides.2.2.2.2 _ _ hspell
    exact ⟨i, hi, hsettings _ (List.Perm.swap _ _ [])⟩

end StaticInit
