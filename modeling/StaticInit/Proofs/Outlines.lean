import StaticInit.Proofs.Effects

/-!
# What a step makes of objects

A step makes of its own object what its action makes of it (`Object.after`,
`Store.get?_step_self`), unless it puts another in its place. Besides its own object
it changes a static state at most, and only what is in it. So it is told of a store,
up to what is in the static states, by an outline of it (`Store.outline`):

* `outline_step_of_ne`: a step keeps the outline of every object but its own;
* `outline_step_self`: the outline of its own object comes from the outlines of that
  object and of those that its action takes something from (`Action.feeds`);
* `get?_eq_of_outline_eq`: objects with one outline are the same but for static states,
  and no name comes to stand for one by itself (`isStatics_run`).
-/

namespace StaticInit

/-- What `incr` makes of an instance does not hang on the static state. -/
theorem Derived.fst_incr_congr (d : Derived) (s t : Statics) : (d.incr s).1 = (d.incr t).1 := by
  unfold incr
  split <;> rfl

namespace Script

/-! ## What a step makes of its object -/

namespace Action

/-- Whether the action puts a new object, or a copy, in the place of another. -/
def renews : Action → Bool
  | .new _ | .clone _ => true
  | _ => false

/-- The names of the objects that an action takes something from, besides its own. -/
def feeds : Action → List String
  | .clone source => [source]
  | .incr statics? => statics?.toList
  | .storeRow _ row => [row]
  | .new _ | .eq _ | .view | .operate _ => []

end Action

namespace Object

/-- What an action makes of the object it is done with. -/
def after (look : String → Option Object) : Object → Action → Object
  | .base b, .incr _ => .base b.incr
  | .derived d, .incr (some name) =>
    match look name with
    | some (.statics s) => .derived (d.incr s).1
    | _ => .derived d
  | .rows a, .storeRow index row =>
    match look row with
    | some (.ints r) => .rows ((a.store index r).toOption.getD a)
    | _ => .rows a
  | o, .operate op =>
    match o.operate op with
    | some (.ok (_, o')) => o'
    | _ => o
  | o, _ => o

def isStatics : Object → Bool
  | .statics _ => true
  | _ => false

/-- The object, with nothing told of what is in a static state. -/
def outline : Object → Object
  | .statics _ => .statics .fresh
  | o => o

theorem eq_of_outline_eq {o o' : Object} (h : o.outline = o'.outline) (ho : o.isStatics = false) :
    o = o' := by
  cases o <;> cases o' <;> simp_all [outline, isStatics]

theorem outline_eq_of_isStatics {o o' : Object} (ho : o.isStatics = true)
    (ho' : o'.isStatics = true) : o.outline = o'.outline := by
  cases o <;> cases o' <;> simp_all [outline, isStatics]

theorem isStatics_outline (o : Object) : o.outline.isStatics = o.isStatics := by
  cases o <;> rfl

theorem isStatics_operate {o o' : Object} {op : Operation} {result : Result}
    (h : o.operate op = some (.ok (result, o'))) : o'.isStatics = o.isStatics := by
  unfold operate at h
  split at h <;> simp only [Option.some.injEq, reduceCtorEq] at h <;>
    grind [map_eq_ok_iff, isStatics]

theorem isStatics_after (look : String → Option Object) (o : Object) (action : Action) :
    (o.after look action).isStatics = o.isStatics := by
  unfold after
  split
  · rfl
  · split <;> rfl
  · split <;> rfl
  · split
    · next h => exact isStatics_operate h
    · rfl
  · rfl

theorem isStatics_of_copyable {o : Object} (h : o.copyable = true) : o.isStatics = false := by
  cases o <;> simp_all [copyable, isStatics]

/-- Two names with one outline stand for one object, or both for static states. -/
theorem outline_cases {x y : Option Object} (h : x.map outline = y.map outline) :
    x = y ∨ ∃ s t, x = some (.statics s) ∧ y = some (.statics t) := by
  rcases x with _ | o <;> rcases y with _ | o' <;> simp only [Option.map_none, Option.map_some,
    reduceCtorEq, Option.some.injEq] at h
  · exact .inl rfl
  · cases ho : o.isStatics with
    | false => exact .inl (congrArg some (eq_of_outline_eq h ho))
    | true =>
      have ho' : o'.isStatics = true := by rw [← isStatics_outline, ← h, isStatics_outline, ho]
      cases o <;> cases o' <;> simp_all [isStatics]

variable {look look' : String → Option Object}

/-- What becomes of an object hangs on no static state, unless it is one. -/
theorem outline_after_congr {o o' : Object} {action : Action} (h : o.outline = o'.outline)
    (hfeeds : ∀ n ∈ action.feeds, (look n).map outline = (look' n).map outline) :
    (o.after look action).outline = (o'.after look' action).outline := by
  cases ho : o.isStatics with
  | true =>
    have ho' : o'.isStatics = true := by rw [← isStatics_outline, ← h, isStatics_outline, ho]
    refine outline_eq_of_isStatics ?_ ?_
    · rw [isStatics_after, ho]
    · rw [isStatics_after, ho']
  | false =>
    obtain rfl := eq_of_outline_eq h ho
    unfold after
    split
    · rfl
    · next d name =>
      rcases outline_cases (hfeeds name (by simp [Action.feeds])) with heq | ⟨s, t, hs, ht⟩
      · rw [heq]
      · simp only [hs, ht, Derived.fst_incr_congr d s t]
    · next a index row =>
      rcases outline_cases (hfeeds row (by simp [Action.feeds])) with heq | ⟨s, t, hs, ht⟩
      · rw [heq]
      · simp only [hs, ht]
    · rfl
    · rfl

end Object

theorem Shape.isStatics_fresh {shape : Shape} {o : Object} (h : shape ≠ .statics)
    (ho : shape.fresh? = some o) : o.isStatics = false := by
  cases shape with
  | statics => exact absurd rfl h
  | ints len | rows len | strings len =>
    simp only [fresh?] at ho
    split at ho <;> cases ho
    rfl
  | _ => cases ho; rfl

namespace Store

theorem snd_step (store : Store) (step : Step) :
    (store.step step).2 =
      store.insertAll ((step.effect? store.get?).elim [] Effect.changes) := by
  cases heffect : step.effect? store.get? with
  | none => rw [step_of_misfit heffect]; rfl
  | some effect =>
    obtain ⟨o, -, hstep⟩ := step_of_effect? heffect
    rw [hstep]; rfl

theorem get?_step_new (store : Store) (id : String) (shape : Shape) :
    (store.step ⟨id, .new shape⟩).2.get? id = shape.fresh?.or (store.get? id) := by
  rw [snd_step]
  cases hshape : shape.fresh? <;> simp [Step.effect?, hshape, get?_insert]

theorem get?_step_clone (store : Store) (id source : String) :
    (store.step ⟨id, .clone source⟩).2.get? id =
      ((store.get? source).filter Object.copyable).or (store.get? id) := by
  rw [snd_step]
  cases hsource : store.get? source with
  | none => simp [Step.effect?, hsource]
  | some o => cases ho : o.copyable <;> simp [Step.effect?, hsource, ho, get?_insert, Option.filter]

theorem get?_step_operate (store : Store) (id : String) (op : Operation) :
    (store.step ⟨id, .operate op⟩).2.get? id =
      (store.get? id).map fun o => o.after store.get? (.operate op) := by
  rw [snd_step]
  cases ho : store.get? id with
  | none => simp [Step.effect?, ho]
  | some o =>
    simp only [Step.effect?, ho]
    rcases hop : o.operate op with _ | _ | ⟨result, o'⟩ <;>
      simp [hop, ho, Object.after, Effect.ofOutcome, get?_insert]

theorem get?_step_storeRow (store : Store) (id : String) (index : Nat) (row : String) :
    (store.step ⟨id, .storeRow index row⟩).2.get? id =
      (store.get? id).map fun o => o.after store.get? (.storeRow index row) := by
  rw [snd_step]
  cases ho : store.get? id with
  | none => simp [Step.effect?, ho]
  | some o =>
    cases o with
    | rows a =>
      rcases hrow : store.get? row with _ | x
      · simp [Step.effect?, ho, hrow, Object.after]
      · cases x with
        | ints r =>
          cases hstore : a.store index r <;>
            simp [Step.effect?, ho, hrow, hstore, Object.after, Effect.ofOutcome, Except.map,
              Except.toOption, get?_insert]
        | _ => simp [Step.effect?, ho, hrow, Object.after]
    | _ => simp [Step.effect?, ho, Object.after]

theorem get?_step_incr (store : Store) (id : String) (statics? : Option String) :
    (store.step ⟨id, .incr statics?⟩).2.get? id =
      (store.get? id).map fun o => o.after store.get? (.incr statics?) := by
  rw [snd_step]
  rcases ho : store.get? id with _ | o
  · simp [Step.effect?, ho]
  · cases o with
    | base b => simp [Step.effect?, ho, Object.after, get?_insert]
    | derived d =>
      rcases statics? with _ | name
      · simp [Step.effect?, ho, Object.after]
      · rcases hs : store.get? name with _ | x
        · simp [Step.effect?, ho, hs, Object.after]
        · cases x with
          | statics s =>
            -- the two changes are of different objects
            have hne : id ≠ name := by
              rintro rfl
              simp [ho] at hs
            simp [Step.effect?, ho, hs, Object.after, Effect.ofIncr, get?_insert, hne]
          | _ => simp [Step.effect?, ho, hs, Object.after]
    | _ => simp [Step.effect?, ho, Object.after]

/-- What becomes of the object of a step that does not put another in its place. -/
theorem get?_step_self (store : Store) (id : String) {action : Action}
    (h : action.renews = false) :
    (store.step ⟨id, action⟩).2.get? id =
      (store.get? id).map fun o => o.after store.get? action := by
  cases action with
  | new shape => cases h
  | clone source => cases h
  | incr statics? => exact get?_step_incr store id statics?
  | storeRow index row => exact get?_step_storeRow store id index row
  | operate op => exact get?_step_operate store id op
  | view =>
    rw [snd_step]
    cases ho : store.get? id <;> simp [Step.effect?, ho, Object.after]
  | eq other =>
    rw [snd_step]
    simp only [Step.effect?]
    split
    · next a b ha _ => cases a.same? b <;> simp [ha, Object.after]
    · simp [Object.after]

/-! ## Steps and outlines -/

/-- The outline of what stands for a name. -/
def outline (store : Store) (name : String) : Option Object := (store.get? name).map Object.outline

/-- What a step changes besides its own object is a static state, which stays one. -/
theorem outline_step_of_ne {step : Step} {name : String} (h : name ≠ step.id) (store : Store) :
    (store.step step).2.outline name = store.outline name := by
  cases heffect : step.effect? store.get? with
  | none => rw [step_of_misfit heffect]
  | some effect =>
    obtain ⟨o, -, hstep⟩ := step_of_effect? heffect
    rw [hstep]
    cases Step.shape_of_effect? heffect with
    | reads r ho => rfl
    | writes o hr => simp [outline, get?_insert, h]
    | @incr lent d s haction hd hs =>
      by_cases hlent : name = lent
      · simp [outline, Effect.ofIncr, get?_insert, hlent, hs, Object.outline]
      · simp [outline, Effect.ofIncr, get?_insert, hlent, h]

/-- The outline of the object of a step comes from the outlines of that object and of
what the step takes something from. -/
theorem outline_step_self {s t : Store} {step : Step} (hid : s.outline step.id = t.outline step.id)
    (hfeeds : ∀ n ∈ step.action.feeds, s.outline n = t.outline n) :
    (s.step step).2.outline step.id = (t.step step).2.outline step.id := by
  obtain ⟨id, action⟩ := step
  cases hrenews : action.renews with
  | false =>
    rw [outline, outline, get?_step_self s id hrenews, get?_step_self t id hrenews,
      Option.map_map, Option.map_map]
    simp only [outline] at hid hfeeds
    cases hs : s.get? id <;> cases ht : t.get? id <;>
      simp only [hs, ht, Option.map_none, Option.map_some, reduceCtorEq, Option.some.injEq] at hid ⊢
    exact Object.outline_after_congr hid hfeeds
  | true =>
    cases action with
    | new shape =>
      rw [outline, outline, get?_step_new, get?_step_new, Option.map_or, Option.map_or]
      exact congrArg _ hid
    | clone source =>
      rw [outline, outline, get?_step_clone, get?_step_clone, Option.map_or, Option.map_or]
      rcases Object.outline_cases (hfeeds source (by simp [Action.feeds])) with h | ⟨x, y, hx, hy⟩
      · rw [h]
        exact congrArg _ hid
      · rw [hx, hy]
        exact hid
    | _ => cases hrenews

/-- Whether a static state stands for the name. -/
def isStatics (store : Store) (name : String) : Bool := (store.get? name).any Object.isStatics

theorem any_outline (store : Store) (name : String) :
    (store.outline name).any Object.isStatics = store.isStatics name := by
  rw [outline, isStatics]
  cases store.get? name with
  | none => rfl
  | some o => exact Object.isStatics_outline o

theorem get?_eq_of_outline_eq {s t : Store} {name : String} (h : s.outline name = t.outline name)
    (hs : s.isStatics name = false) : s.get? name = t.get? name := by
  rcases Object.outline_cases h with heq | ⟨x, y, hx, -⟩
  · exact heq
  · simp [isStatics, hx, Object.isStatics] at hs

/-- A name does not come to stand for a static state unless a new one is put there. -/
theorem isStatics_step {store : Store} {step : Step} {name : String}
    (hname : store.isStatics name = false) (hstep : step ≠ ⟨name, .new .statics⟩) :
    (store.step step).2.isStatics name = false := by
  by_cases hne : name = step.id
  · obtain ⟨id, action⟩ := step
    obtain rfl : name = id := hne
    cases hrenews : action.renews with
    | false =>
      rw [isStatics] at hname ⊢
      rw [get?_step_self store name hrenews]
      cases ho : store.get? name with
      | none => rfl
      | some o =>
        rw [ho] at hname
        exact (Object.isStatics_after _ o action).trans hname
    | true =>
      cases action with
      | new shape =>
        have hshape : shape ≠ .statics := fun h => hstep (h ▸ rfl)
        rw [isStatics, get?_step_new]
        cases hfresh : shape.fresh? with
        | none => exact hname
        | some o => exact Shape.isStatics_fresh hshape hfresh
      | clone source =>
        rw [isStatics, get?_step_clone]
        cases hcopied : (store.get? source).filter Object.copyable with
        | none => exact hname
        | some o => exact Object.isStatics_of_copyable (Option.filter_eq_some_iff.mp hcopied).2
      | _ => cases hrenews
  · rw [← any_outline, outline_step_of_ne hne, any_outline, hname]

theorem isStatics_run {store : Store} {lines : List Line} {name : String}
    (hname : store.isStatics name = false) (hlines : some ⟨name, .new .statics⟩ ∉ lines) :
    (store.run lines).2.isStatics name = false := by
  induction lines generalizing store with
  | nil => exact hname
  | cons line lines ih =>
    rw [List.mem_cons, not_or] at hlines
    rw [run_cons]
    refine ih ?_ hlines.2
    cases line with
    | none => exact hname
    | some step => exact isStatics_step hname fun h => hlines.1 (congrArg some h.symm)

end Store

end Script

end StaticInit
