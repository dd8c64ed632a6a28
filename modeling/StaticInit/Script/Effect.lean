import StaticInit.Script.Step

/-!
# What a step does

The effect of a step on the objects it mentions: its result, and the objects it
puts in the place of others. A step that does not fit its objects has no effect
at all, not even a result; an operation that fails has a fault as its result
and changes nothing.
-/

namespace StaticInit.Script

/-- An operation on an object, where the object has such an operation. -/
def Object.operate : Object → Operation → Option (Except Fault (Result × Object))
  | .statics s, .seedCounter seed =>
    some (.ok (.flag (s.seedCounter seed).1, .statics (s.seedCounter seed).2))
  | .statics s, .fixSum => some (.ok (.number s.fixSum.1, .statics s.fixSum.2))
  | .statics s, .readSum => some (s.readSum.map fun sum => (.number sum, .statics s))
  | .statics s, .counter => some (.ok (.number s.counter, .statics s))
  | .base b, .decr => some (.ok (.kind b.decr.1, .base b.decr.2))
  | .base b, .box => some (.ok (.nothing, .handle (.base b)))
  | .derived d, .decr => some (.ok (.kind d.decr.1, .derived d.decr.2))
  | .derived d, .box => some (.ok (.nothing, .handle (.derived d)))
  | .handle h, .decr => some (.ok (.kind h.decr.1, .handle h.decr.2))
  | .ints a, .store index (.number n) =>
    some ((a.store index n).map fun a' => (.nothing, .ints a'))
  | .ints a, .storePattern index bits =>
    some ((a.storePattern index bits).map fun a' => (.nothing, .ints a'))
  | .ints a, .load index => some ((a.load index).map fun n => (.number n, .ints a))
  | .ints a, .isEmpty => some (.ok (.flag a.isEmpty, .ints a))
  | .rows a, .get index => some ((a.get index).map fun r => (.row (shown r.slots), .rows a))
  | .rows a, .isNull index => some ((a.isNull index).map fun b => (.flag b, .rows a))
  | .rows a, .loadRow index column =>
    some (((a.get index).bind fun r => r.load column).map fun n => (.number n, .rows a))
  | .rows a, .isEmpty => some (.ok (.flag a.isEmpty, .rows a))
  | .strings a, .store index (.text t) =>
    some ((a.store index t).map fun a' => (.nothing, .strings a'))
  | .strings a, .get index => some ((a.get index).map fun t => (.text t, .strings a))
  | .strings a, .isNull index => some ((a.isNull index).map fun b => (.flag b, .strings a))
  | .strings a, .isEmpty => some (.ok (.flag a.isEmpty, .strings a))
  | .evaluation e, .value => some (e.value.map fun (n, e') => (.number n, .evaluation e'))
  | .evaluation e, .run =>
    some (e.run.map fun r => (.report r.report, .evaluation r.evaluation))
  | _, _ => none

/-- A result, and the objects that take the place of others. -/
structure Effect where
  result : Result
  changes : List (String × Object) := []

namespace Effect

/-- The effect of an operation on the object of a name: a fault changes nothing. -/
def ofOutcome (id : String) : Except Fault (Result × Object) → Effect
  | .ok (result, o) => ⟨result, [(id, o)]⟩
  | .error f => ⟨.fault f, []⟩

/-- The overriding `incr` changes the instance and the static state. -/
def ofIncr (id name : String) (d : Derived) (s : Statics) : Effect :=
  match d.incr s with
  | (d', s') => ⟨.counter s'.counter, [(id, .derived d'), (name, .statics s')]⟩

end Effect

/-- The effect of a step where the objects are those that `look` finds. -/
def Step.effect? (look : String → Option Object) (step : Step) : Option Effect :=
  match step.action with
  | .new shape => shape.fresh?.map fun o => ⟨.nothing, [(step.id, o)]⟩
  | .clone source =>
    match look source with
    | some o => if o.copyable then some ⟨.nothing, [(step.id, o)]⟩ else none
    | none => none
  | .eq other =>
    match look step.id, look other with
    | some a, some b => (a.same? b).map fun e => ⟨.flag e, []⟩
    | _, _ => none
  | .view => (look step.id).map fun _ => ⟨.nothing, []⟩
  | .incr statics? =>
    match look step.id with
    | some (.base b) => some ⟨.nothing, [(step.id, .base b.incr)]⟩
    | some (.derived d) =>
      match statics? with
      | none => none
      | some name =>
        match look name with
        | some (.statics s) => some (.ofIncr step.id name d s)
        | _ => none
    | _ => none
  | .storeRow index row =>
    match look step.id, look row with
    | some (.rows a), some (.ints r) =>
      some (.ofOutcome step.id ((a.store index r).map fun a' => (.nothing, .rows a')))
    | _, _ => none
  | .operate op =>
    match look step.id with
    | some o => (o.operate op).map (.ofOutcome step.id)
    | none => none

end StaticInit.Script
