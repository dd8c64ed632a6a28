import StaticInit.Proofs.Invocations

/-!
# Reading in two parts

What the reading of some arguments settles before the next are known. Between two
arguments the reading stands in one of four ways (`Standing`), and each argument
but the separator leads from one to the next (`Standing.step`):

* it is ready for an option or flag;
* the value of an option is due;
* a value was taken whose problem is not told yet;
* it has ended.

To read on from where some arguments lead is to read them and the rest in one
(`Standing.resume_step` for one argument, `Standing.resume_foldl` for many,
`read_append` for the whole). Where a value is due, the arguments end in an option;
where a problem is not told yet, they end in an option and its value
(`behind_eq_waiting_iff`, `endsInValue_of_pending`).
-/

namespace StaticInit.Args

variable {a before rest : List String} {argument value : String} {seen : List Request}
  {o : Opt} {p : Problem} {stop : Stop}

/-! ## One argument, whatever follows -/

theorem Item.ofArgument_congr (h : argument ≠ "--") (rest rest' : List String) :
    ofArgument argument rest = ofArgument argument rest' := by
  cases hw : Word.ofText argument with
  | separator =>
    have hword : Word.Is argument.toList (Word.ofText argument) := Word.is_ofChars _
    rw [hw] at hword
    exact absurd (String.toList_inj.mp (hword.trans (by decide : _ = "--".toList))) h
  | _ => simp only [ofArgument, hw]

/-- The problem does not wait for what stands behind the next argument. -/
theorem outstanding_cons (h : argument ≠ "--") (p : Problem) (rest : List String) :
    outstanding p (argument :: rest) = outstanding p [argument] := by
  simp only [outstanding, Item.ofArgument_congr h rest []]

/-! ## Where the reading stands -/

inductive Standing where
  | ready (seen : List Request)
  /-- The value of an option is due. -/
  | waiting (seen : List Request) (o : Opt)
  /-- The last argument is a value with a problem that is not told yet. -/
  | pending (p : Problem)
  | ended (stop : Stop)

namespace Standing

/-- Ready after what was accepted, or ended. -/
def after : Except Stop (List Request) → Standing
  | .ok seen => .ready seen
  | .error stop => .ended stop

/-- The next standing, where the argument is not the separator. -/
def step : Standing → String → Standing
  | .ready seen, argument =>
    match Item.ofArgument argument [] with
    | .refused p => .ended (.refused p)
    | .close => .ready seen
    | .cluster cs => after (readCluster seen cs)
    | .flag f => after (readFlag seen f)
    | .attached o value => after ((readValue seen o value).mapError .refused)
    | .awaiting o => .waiting seen o
  | .waiting seen o, argument =>
    if o.takes argument then
      match readValue seen o argument with
      | .ok seen' => .ready seen'
      | .error p => .pending p
    else .ended (.refused (outstanding (.missingValue o) [argument]))
  | .pending p, argument => .ended (.refused (outstanding p [argument]))
  | .ended stop, _ => .ended stop

/-- Reads on to the end. -/
def resume (rest : List String) : Standing → Except Stop (List Request)
  | .ready seen => readAfter seen rest
  | .waiting seen o => readAfter seen (o.spelling :: rest)
  | .pending p => .error (.refused (outstanding p rest))
  | .ended stop => .error stop

/-- One step on, whatever follows. -/
theorem resume_step (s : Standing) (h : argument ≠ "--") (rest : List String) :
    (s.step argument).resume rest = s.resume (argument :: rest) := by
  cases s with
  | ready seen =>
    show _ = readAfter seen (argument :: rest)
    cases hitem : Item.ofArgument argument [] with
    | refused p => simp only [step, readAfter, Item.ofArgument_congr h rest [], hitem, resume]
    | close => exact absurd (Item.is_ofArgument hitem).1 h
    | cluster cs =>
      simp only [step, readAfter, Item.ofArgument_congr h rest [], hitem]
      cases readCluster seen cs <;> rfl
    | flag f =>
      simp only [step, readAfter, Item.ofArgument_congr h rest [], hitem]
      cases readFlag seen f <;> rfl
    | attached o value =>
      simp only [step, readAfter, Item.ofArgument_congr h rest [], hitem]
      cases readValue seen o value <;> rfl
    | awaiting o =>
      obtain rfl : argument = o.spelling := Item.is_ofArgument hitem
      simp only [step, hitem, resume]
  | waiting seen o =>
    simp only [resume, readAfter, Item.ofArgument_spelling, step]
    by_cases ht : o.takes argument = true
    · rw [if_pos ht, if_pos ht]
      cases readValue seen o argument <;> rfl
    · rw [if_neg ht, if_neg ht, outstanding_cons h _ rest]
  | pending p => simp only [resume, step, outstanding_cons h p rest]
  | ended stop => rfl

/-- By induction on the arguments, one step for each. -/
theorem resume_foldl (s : Standing) (ha : "--" ∉ a) (rest : List String) :
    (a.foldl step s).resume rest = s.resume (a ++ rest) := by
  induction a generalizing s with
  | nil => rfl
  | cons argument a ih =>
    obtain ⟨hargument, ha⟩ := not_or.mp (mt List.mem_cons.mpr ha)
    rw [List.foldl_cons, ih _ ha, resume_step s (Ne.symm hargument), List.cons_append]

/-- Where the reading stands after arguments without a separator. -/
def behind (a : List String) : Standing := a.foldl step (.ready [])

theorem behind_concat (a : List String) (argument : String) :
    behind (a ++ [argument]) = (behind a).step argument := by
  rw [behind, List.foldl_append]
  rfl

end Standing

/-- What follows is read from where the first part ends. -/
theorem read_append (ha : "--" ∉ a) (b : List String) :
    read (a ++ b) = (Standing.behind a).resume b :=
  (Standing.resume_foldl (.ready []) ha b).symm

theorem read_eq_resume (ha : "--" ∉ a) : read a = (Standing.behind a).resume [] := by
  rw [← read_append ha, List.append_nil]

namespace Standing

theorem after_ne_waiting (x : Except Stop (List Request)) : after x ≠ .waiting seen o := by
  cases x <;> exact nofun

theorem after_ne_pending (x : Except Stop (List Request)) : after x ≠ .pending p := by
  cases x <;> exact nofun

/-- Only an option makes the reading wait. -/
theorem eq_of_step_eq_waiting {s : Standing} (h : s.step argument = .waiting seen o) :
    s = .ready seen ∧ argument = o.spelling := by
  cases s with
  | ready before =>
    simp only [step] at h
    split at h
    · cases h
    · cases h
    · exact absurd h (after_ne_waiting _)
    · exact absurd h (after_ne_waiting _)
    · exact absurd h (after_ne_waiting _)
    · next hitem =>
      cases h
      exact ⟨rfl, Item.is_ofArgument hitem⟩
  | waiting before o' =>
    simp only [step] at h
    split at h
    · split at h <;> cases h
    · cases h
  | pending p => cases h
  | ended stop => cases h

/-- Only a value that is due can be pending. -/
theorem exists_of_step_eq_pending {s : Standing} (h : s.step argument = .pending p) :
    ∃ seen o, s = .waiting seen o ∧ o.takes argument = true ∧
      readValue seen o argument = .error p := by
  cases s with
  | ready before =>
    simp only [step] at h
    split at h
    · cases h
    · cases h
    · exact absurd h (after_ne_pending _)
    · exact absurd h (after_ne_pending _)
    · exact absurd h (after_ne_pending _)
    · cases h
  | waiting before o =>
    simp only [step] at h
    split at h
    · next ht =>
      split at h
      · cases h
      · next p' hv =>
        cases h
        exact ⟨before, o, rfl, ht, hv⟩
    · cases h
  | pending p => cases h
  | ended stop => cases h

theorem resume_nil_eq_ok_iff {s : Standing} : s.resume [] = .ok seen ↔ s = .ready seen := by
  cases s with
  | ready before => simp [resume, readAfter]
  | waiting before o => simp [resume, readAfter, Item.ofArgument_spelling]
  | pending p => simp [resume]
  | ended stop => simp [resume]

end Standing

/-! ## How arguments end -/

/-- The arguments parse. -/
def Accepted (a : List String) : Prop := ∃ i, Invocation.ofArguments a = .ok i

/-- After accepted arguments comes an option, and nothing more. -/
def EndsInOption (a : List String) : Prop :=
  ∃ before o, Accepted before ∧ a = before ++ [Opt.spelling o]

/-- After accepted arguments comes an option with a value that it takes, and nothing more. -/
def EndsInValue (a : List String) : Prop :=
  ∃ before o value, Accepted before ∧ Opt.takes o value = true ∧
    a = before ++ [Opt.spelling o] ++ [value]

theorem accepted_iff : Accepted a ↔ ∃ seen, read a = .ok seen := by
  simp only [Accepted, Invocation.ofArguments_eq_ok_iff]
  rw [exists_comm]
  simp only [exists_and_left, exists_eq', and_true]

namespace Standing

theorem behind_eq_ready_iff (ha : "--" ∉ a) : behind a = .ready seen ↔ read a = .ok seen := by
  rw [read_eq_resume ha, resume_nil_eq_ok_iff]

theorem behind_eq_waiting_iff (ha : "--" ∉ a) :
    behind a = .waiting seen o ↔ ∃ before, read before = .ok seen ∧ a = before ++ [o.spelling] := by
  constructor
  · intro h
    obtain rfl | ⟨before, argument, rfl⟩ := List.eq_nil_or_concat a
    · cases h
    · rw [List.concat_eq_append] at ha h ⊢
      rw [behind_concat] at h
      obtain ⟨hready, rfl⟩ := eq_of_step_eq_waiting h
      have hbefore : "--" ∉ before := fun hmem => ha (List.mem_append_left _ hmem)
      exact ⟨before, (behind_eq_ready_iff hbefore).mp hready, rfl⟩
  · rintro ⟨before, hread, rfl⟩
    have hbefore : "--" ∉ before := fun hmem => ha (List.mem_append_left _ hmem)
    rw [behind_concat, (behind_eq_ready_iff hbefore).mpr hread]
    simp only [step, Item.ofArgument_spelling]

theorem endsInOption_iff (ha : "--" ∉ a) :
    EndsInOption a ↔ ∃ seen o, behind a = .waiting seen o := by
  simp only [EndsInOption, accepted_iff, behind_eq_waiting_iff ha]
  constructor
  · rintro ⟨before, o, ⟨seen, hread⟩, ha⟩
    exact ⟨seen, o, before, hread, ha⟩
  · rintro ⟨seen, o, before, hread, ha⟩
    exact ⟨before, o, ⟨seen, hread⟩, ha⟩

theorem endsInValue_of_pending (ha : "--" ∉ a) (h : behind a = .pending p) : EndsInValue a := by
  obtain rfl | ⟨front, value, rfl⟩ := List.eq_nil_or_concat a
  · cases h
  · rw [List.concat_eq_append] at ha h ⊢
    rw [behind_concat] at h
    obtain ⟨seen, o, hwaiting, takes, -⟩ := exists_of_step_eq_pending h
    have hfront : "--" ∉ front := fun hmem => ha (List.mem_append_left _ hmem)
    obtain ⟨before, hread, rfl⟩ := (behind_eq_waiting_iff hfront).mp hwaiting
    exact ⟨before, o, value, accepted_iff.mpr ⟨seen, hread⟩, takes, rfl⟩

/-- Behind a value that was taken, the reading has not ended. -/
theorem behind_of_endsInValue (ha : "--" ∉ a) (h : EndsInValue a) :
    (∃ seen, behind a = .ready seen) ∨ ∃ p, behind a = .pending p := by
  obtain ⟨before, o, value, hbefore, takes, rfl⟩ := h
  obtain ⟨seen, hread⟩ := accepted_iff.mp hbefore
  have hfront : "--" ∉ before ++ [o.spelling] := fun hmem => ha (List.mem_append_left _ hmem)
  rw [behind_concat, (behind_eq_waiting_iff hfront).mpr ⟨before, hread, rfl⟩]
  simp only [step, takes, if_true]
  cases readValue seen o value with
  | ok seen' => exact .inl ⟨seen', rfl⟩
  | error p => exact .inr ⟨p, rfl⟩

end Standing

end StaticInit.Args
