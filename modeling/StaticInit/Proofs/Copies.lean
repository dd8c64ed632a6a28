import StaticInit.Proofs.Failures
import StaticInit.Proofs.Memory
import StaticInit.Proofs.Occupancy
import StaticInit.Proofs.Outlines

/-!
# Copies

A copy has nothing in common with its source but its value (`Store.copies_independent`):
neither an object that was cloned and its clone, nor an array of integers and the row that
was stored of it in a slot, nor two rows stored of one array.

Take a script and leave out all steps on some of the objects. What the other objects
become stays the same if no step on them takes anything from those that are left out
(`outline_run_without`); only the static states that the steps left out have lent may
differ. So a source does not notice its copy, nor a copy its source. A row in a slot has
no operations of its own, and no line changes it that does not replace it (`HasRow.run`).
-/

namespace StaticInit.Script

namespace Store

/-! ## Scripts without some of their lines -/

/-- Whether the line is a step on one of the names. -/
def on (T : List String) : Line → Bool
  | some step => step.id ∈ T
  | none => false

/-- The lines but for the steps on the names in `T`. -/
def without (T : List String) (lines : List Line) : List Line := lines.filter fun l => !on T l

/-- No step on another name takes anything from the names in `T`. -/
def Apart (T : List String) (lines : List Line) : Prop :=
  ∀ line ∈ lines, ∀ step ∈ line, step.id ∉ T → ∀ n ∈ step.action.feeds, n ∉ T

instance (T : List String) (lines : List Line) : Decidable (Apart T lines) :=
  inferInstanceAs (Decidable (∀ line ∈ lines, ∀ step ∈ line, _ → _))

theorem outline_run_without {T : List String} {lines : List Line} (hapart : Apart T lines)
    {s t : Store} (h : ∀ n ∉ T, s.outline n = t.outline n) :
    ∀ n ∉ T, (s.run lines).2.outline n = (t.run (without T lines)).2.outline n := by
  induction lines generalizing s t with
  | nil => exact h
  | cons line lines ih =>
    have hrest : Apart T lines := fun l hl => hapart l (List.mem_cons_of_mem line hl)
    rw [run_cons, without, List.filter_cons]
    cases line with
    | none => exact ih hrest h
    | some step =>
      by_cases hid : step.id ∈ T
      · have hon : on T (some step) = true := decide_eq_true hid
        rw [hon]
        refine ih hrest fun n hn => ?_
        have hne : n ≠ step.id := (ne_of_mem_of_not_mem hid hn).symm
        exact (outline_step_of_ne hne s).trans (h n hn)
      · have hon : on T (some step) = false := decide_eq_false hid
        rw [hon]
        refine ih hrest fun n hn => ?_
        by_cases hname : n = step.id
        · subst hname
          have hfeeds := hapart _ List.mem_cons_self step rfl hid
          exact outline_step_self (h _ hid) fun m hm => h m (hfeeds m hm)
        · have hrest := (h n hn).trans (outline_step_of_ne hname t).symm
          exact (outline_step_of_ne hname s).trans hrest

end Store

/-! ## Rows in slots -/

/-- What becomes of an array of rows that keeps its name. -/
theorem Object.after_rows (look : String → Option Object) (a : Refs Ints) (action : Action) :
    (Object.rows a).after look action = .rows a ∨
      ∃ index row r b, action = .storeRow index row ∧ a.store index r = .ok b ∧
        (Object.rows a).after look action = .rows b := by
  cases action with
  | storeRow index row =>
    simp only [after]
    split
    · next r _ =>
      cases hstore : a.store index r with
      | error f => exact .inl rfl
      | ok b => exact .inr ⟨index, row, r, b, rfl, hstore, rfl⟩
    · exact .inl rfl
  | operate op =>
    refine .inl ?_
    simp only [after]
    split
    · next result o hop =>
      cases op <;> simp only [operate, Option.some.injEq, reduceCtorEq] at hop <;>
        grind [map_eq_ok_iff]
    · rfl
  | _ => exact .inl rfl

/-- The result of a load. -/
def Result.loaded : Except Fault Int32 → Result
  | .ok n => .number n
  | .error f => .fault f

namespace Store

/-- An array of rows, of the given length, has the row in its slot. -/
def HasRow (store : Store) (rows : String) (len index : Nat) (x : Ints) : Prop :=
  ∃ a, store.get? rows = some (.rows a) ∧ a.len = len ∧ a.get index = .ok x

/-- Whether the line would put another row into the slot, or another object in the place
of the array. -/
def replaces (rows : String) (index : Nat) : Line → Bool
  | some ⟨id, .storeRow i _⟩ => id = rows ∧ i = index
  | some ⟨id, action⟩ => id = rows ∧ action.renews
  | none => false

variable {rows : String} {len index : Nat} {x : Ints}

theorem HasRow.step {store : Store} (h : store.HasRow rows len index x) {step : Step}
    (hstep : replaces rows index (some step) = false) :
    (store.step step).2.HasRow rows len index x := by
  obtain ⟨a, ha, hlen, hx⟩ := h
  by_cases hrows : rows = step.id
  · obtain ⟨id, action⟩ := step
    obtain rfl : rows = id := hrows
    have hrenews : action.renews = false := by
      cases action <;> simp_all [replaces, Action.renews]
    have hself := get?_step_self store rows hrenews
    rw [ha, Option.map_some] at hself
    rcases Object.after_rows store.get? a action with hsame | ⟨i, row, r, b, rfl, hb, hafter⟩
    · rw [hsame] at hself
      exact ⟨a, hself, hlen, hx⟩
    · rw [hafter] at hself
      have hi : index ≠ i := by
        rintro rfl
        simp [replaces] at hstep
      refine ⟨b, hself, (Refs.len_store hb).trans hlen, ?_⟩
      rw [Refs.get_store hb, if_neg hi, hx]
  · have hkept : (store.step step).2.get? rows = store.get? rows :=
      (get?_eq_of_outline_eq (outline_step_of_ne hrows store).symm
        (by simp [isStatics, ha, Object.isStatics])).symm
    exact ⟨a, hkept.trans ha, hlen, hx⟩

/-- A row stays in its slot as long as no line succeeds in replacing it. -/
theorem HasRow.run {store : Store} (h : store.HasRow rows len index x) {lines : List Line}
    (hlines : ∀ line ∈ store.succeeding lines, replaces rows index line = false) :
    (store.run lines).2.HasRow rows len index x := by
  induction lines generalizing store with
  | nil => exact h
  | cons line lines ih =>
    rw [succeeding_cons] at hlines
    rw [run_cons]
    by_cases hfailed : (store.line line).1.failed = true
    · rw [if_pos hfailed] at hlines
      exact ih (by rwa [line_of_failed hfailed]) hlines
    · rw [if_neg hfailed] at hlines
      refine ih ?_ fun l hl => hlines l (List.mem_cons_of_mem line hl)
      cases line with
      | none => exact h
      | some step => exact h.step (hlines _ List.mem_cons_self)

/-- What the step gives back that loads from a row in a slot. -/
theorem answer_loadRow {store : Store} {a : Refs Ints} (ha : store.get? rows = some (.rows a))
    (column : Nat) :
    (store.step ⟨rows, .operate (.loadRow index column)⟩).1 =
      .done (.loaded ((a.get index).bind fun r => r.load column)) (Object.rows a).view := by
  simp only [Store.step, Step.effect?, ha, Object.operate, Option.map_some]
  cases (a.get index).bind fun r => r.load column <;>
    simp [Effect.ofOutcome, Except.map, get?_insert, ha, Result.loaded]

/-! ## Copies -/

/-- The store once a name stands for a copy of another object. -/
def cloned (store : Store) (source copy : String) : Store :=
  (store.step ⟨copy, .clone source⟩).2

/-- The store once an array of integers has been put into an array of rows. -/
def shelved (store : Store) (rows : String) (index : Nat) (row : String) : Store :=
  (store.step ⟨rows, .storeRow index row⟩).2

/-- Under the name the lines leave in `s` what they leave in `t` without the steps on the
names in `T`, if nothing flows out of these and the name is not given to a static state. -/
def AsWithout (T : List String) (lines : List Line) (name : String) (s t : Store) : Prop :=
  Apart T lines → some ⟨name, .new .statics⟩ ∉ lines →
    (s.run lines).2.get? name = (t.run (without T lines)).2.get? name

theorem asWithout {T : List String} (lines : List Line) {name : String} {s t : Store}
    (h : ∀ n ∉ T, s.outline n = t.outline n) (hname : name ∉ T) (hs : s.isStatics name = false) :
    AsWithout T lines name s t := fun hapart hlines =>
  get?_eq_of_outline_eq (outline_run_without hapart h name hname) (isStatics_run hs hlines)

theorem cloned_eq {store : Store} {source : String} {o : Object}
    (hsource : store.get? source = some o) (ho : o.copyable = true) (copy : String) :
    store.cloned source copy = store.insert copy o := by
  rw [cloned, snd_step]
  simp [Step.effect?, hsource, ho]

theorem hasRow_shelved {store : Store} {row : String} {a : Refs Ints}
    (ha : store.get? rows = some (.rows a)) (hx : store.get? row = some (.ints x))
    (hindex : index < a.len) : (store.shelved rows index row).HasRow rows a.len index x := by
  rcases Refs.store_cases a index x with ⟨b, hb, -⟩ | ⟨-, hle⟩
  · refine ⟨b, ?_, Refs.len_store hb, ?_⟩
    · rw [shelved, get?_step_storeRow, ha]
      simp [Object.after, hx, hb, Except.toOption]
    · rw [Refs.get_store hb, if_pos rfl]
  · omega

section Clone

variable {store : Store} {source copy : String} {o : Object} {T : List String}

/-- A source does not notice its copy. -/
theorem source_of_cloned (hsource : store.get? source = some o) (ho : o.copyable = true)
    (hin : copy ∈ T) (hout : source ∉ T) (lines : List Line) :
    AsWithout T lines source (store.cloned source copy) store := by
  have hother : ∀ n ∉ T, (store.cloned source copy).get? n = store.get? n := by
    intro n hn
    rw [cloned_eq hsource ho, get?_insert, if_neg (ne_of_mem_of_not_mem hin hn).symm]
  refine asWithout lines (fun n hn => ?_) hout ?_
  · rw [outline, hother n hn, outline]
  · rw [isStatics, hother source hout, hsource]
    exact Object.isStatics_of_copyable ho

/-- A copy does not notice its source. -/
theorem copy_of_cloned (hsource : store.get? source = some o) (ho : o.copyable = true)
    (hout : copy ∉ T) (lines : List Line) :
    AsWithout T lines copy (store.cloned source copy) (store.insert copy o) := by
  rw [cloned_eq hsource ho]
  refine asWithout lines (fun n _ => rfl) hout ?_
  rw [isStatics, get?_insert, if_pos rfl]
  exact Object.isStatics_of_copyable ho

end Clone

section Shelf

variable {store : Store} {row : String} {a : Refs Ints} {T : List String} {lines : List Line}

/-- An array of integers does not notice the row that was stored of it. -/
theorem source_of_shelved (hx : store.get? row = some (.ints x)) (hin : rows ∈ T)
    (hout : row ∉ T) : AsWithout T lines row (store.shelved rows index row) store := by
  have hother : ∀ n ∉ T, (store.shelved rows index row).outline n = store.outline n :=
    fun n hn => outline_step_of_ne (ne_of_mem_of_not_mem hin hn).symm store
  refine asWithout lines hother hout ?_
  rw [← any_outline, hother row hout, any_outline, isStatics, hx]
  rfl

/-- What a load from a row gives back after any lines that do not succeed in replacing it. -/
theorem loadRow_of_shelved (ha : store.get? rows = some (.rows a))
    (hx : store.get? row = some (.ints x)) (hindex : index < a.len)
    (hlines : ∀ line ∈ (store.shelved rows index row).succeeding lines,
      replaces rows index line = false) :
    ∃ b, ((store.shelved rows index row).run lines).2.get? rows = some (.rows b) ∧
      ∀ column, (((store.shelved rows index row).run lines).2.step
          ⟨rows, .operate (.loadRow index column)⟩).1 =
        .done (.loaded (x.load column)) (Object.rows b).view := by
  obtain ⟨b, hb, -, hrow⟩ := (hasRow_shelved ha hx hindex).run hlines
  refine ⟨b, hb, fun column => ?_⟩
  rw [answer_loadRow hb, hrow]
  rfl

end Shelf

/-- A copy and its source go their own ways. After `clone`, whatever lines follow, the
source ends as it would without the copy's lines, and the copy as it would without the
source's lines, from what the source was at the copying. After `storeRow`, the source
ends as it would without the lines of the array of rows, and the row in the slot stays
what the source was, whatever lines follow that do not succeed in replacing it. A load
from a row has the fault of the array of rows before that of the row. -/
theorem copies_independent (store : Store) (lines : List Line) :
    (∀ source copy o, store.get? source = some o → o.copyable = true →
      (store.cloned source copy).get? copy = some o ∧
        ∀ T : List String,
          (copy ∈ T → source ∉ T →
            AsWithout T lines source (store.cloned source copy) store) ∧
          (source ∈ T → copy ∉ T →
            AsWithout T lines copy (store.cloned source copy) (store.insert copy o))) ∧
    (∀ rows row a x index, store.get? rows = some (.rows a) → store.get? row = some (.ints x) →
      index < a.len →
      (∀ T : List String, rows ∈ T → row ∉ T →
        AsWithout T lines row (store.shelved rows index row) store) ∧
      ((∀ line ∈ (store.shelved rows index row).succeeding lines,
          replaces rows index line = false) →
        ∃ b, ((store.shelved rows index row).run lines).2.get? rows = some (.rows b) ∧
          ∀ column, (((store.shelved rows index row).run lines).2.step
              ⟨rows, .operate (.loadRow index column)⟩).1 =
            .done (.loaded (x.load column)) (Object.rows b).view)) ∧
    ∀ rows a, store.get? rows = some (.rows a) → ∀ index column, ∃ result,
      (store.step ⟨rows, .operate (.loadRow index column)⟩).1 =
        .done result (Object.rows a).view ∧
      (a.len ≤ index → result = .fault (.outOfBounds index a.len)) ∧
      (a.isNull index = .ok true → result = .fault (.nullSlot index)) ∧
      ∀ r, a.get index = .ok r →
        (r.len ≤ column → result = .fault (.outOfBounds column r.len)) ∧
        ∀ n, r.load column = .ok n → result = .number n := by
  refine ⟨fun source copy o hsource ho => ⟨?_, fun T => ⟨fun hin hout => ?_, fun _ hout => ?_⟩⟩,
    fun rows row a x index ha hx hindex => ⟨fun T hin hout => ?_, fun hlines => ?_⟩,
    fun rows a ha index column => ?_⟩
  · rw [cloned_eq hsource ho, get?_insert, if_pos rfl]
  · exact source_of_cloned hsource ho hin hout lines
  · exact copy_of_cloned hsource ho hout lines
  · exact source_of_shelved hx hin hout
  · exact loadRow_of_shelved ha hx hindex hlines
  · refine ⟨_, answer_loadRow ha column, fun hle => ?_, fun hnull => ?_, fun r hr => ?_⟩
    · rw [Refs.get_eq_error hle]
      rfl
    · rw [Refs.get_of_isNull hnull]
      rfl
    · rw [hr]
      refine ⟨fun hle => ?_, fun n hn => ?_⟩
      · exact congrArg Result.loaded (Ints.load_eq_error hle)
      · exact congrArg Result.loaded hn

/-- An array of integers with a 7 in it, and an array of rows. -/
def shelf : Store :=
  (empty.run [some ⟨"a", .new (.ints 2)⟩, some ⟨"r", .new (.rows 2)⟩,
    some ⟨"a", .operate (.store 0 (.number 7))⟩]).2

/-- Stores into the array and its copy in turn, and of the copy into a slot. -/
def shelving : List Line :=
  [some ⟨"a", .operate (.store 0 (.number 8))⟩, some ⟨"b", .operate (.store 1 (.number 9))⟩,
    some ⟨"r", .storeRow 0 "b"⟩, none, some ⟨"a", .operate (.store 1 (.number 3))⟩]

theorem copies_independent_shelf :
    shelf.get? "a" = some (.ints ⟨#[7, 0]⟩) ∧ shelf.get? "r" = some (.rows (.nulls 2)) ∧
      Apart ["b", "r"] shelving ∧ Apart ["a"] shelving ∧
      ((shelf.cloned "a" "b").run shelving).2.get? "a" =
        (shelf.run (without ["b", "r"] shelving)).2.get? "a" ∧
      ((shelf.cloned "a" "b").run shelving).2.get? "b" =
        ((shelf.insert "b" (.ints ⟨#[7, 0]⟩)).run (without ["a"] shelving)).2.get? "b" ∧
      ((shelf.insert "b" (.ints ⟨#[7, 0]⟩)).run (without ["a"] shelving)).2.get? "b" =
        some (.ints ⟨#[7, 9]⟩) ∧
      ∃ b, ((shelf.shelved "r" 1 "a").run shelving).2.get? "r" = some (.rows b) ∧
        (((shelf.shelved "r" 1 "a").run shelving).2.step ⟨"r", .operate (.loadRow 1 0)⟩).1 =
          .done (.number 7) (Object.rows b).view := by
  have ha : shelf.get? "a" = some (.ints ⟨#[7, 0]⟩) := by decide
  have hr : shelf.get? "r" = some (.rows (.nulls 2)) := by decide
  have hcopy : Apart ["b", "r"] shelving := by decide
  have hsource : Apart ["a"] shelving := by decide
  obtain ⟨hclone, hstore, -⟩ := copies_independent shelf shelving
  obtain ⟨-, hT⟩ := hclone "a" "b" _ ha rfl
  obtain ⟨b, hb, hload⟩ := (hstore "r" "a" _ _ 1 hr ha (by decide)).2 (by decide)
  exact ⟨ha, hr, hcopy, hsource, (hT _).1 (by decide) (by decide) hcopy (by decide),
    (hT _).2 (by decide) (by decide) hsource (by decide), by decide, b, hb, hload 0⟩

end Store

end StaticInit.Script
