import StaticInit.Proofs.Refusals
import StaticInit.Proofs.Standing

/-!
# The first problem is final

What is told of a command line that goes on after a problem, or after arguments
that are accepted (`first_problem_final`).

A problem stays what it is, with two exceptions at the very end of the first part.
An option there may still get its value. And a problem with the value of an option
there is told late: an argument that is refused for its own spelling goes before
it, though nothing else does. Arguments that are accepted do not matter to what
follows, as long as it mentions no option and no flag of theirs again
(`readAfter_behind`).
-/

namespace StaticInit.Args

variable {a b rest : List String} {seen earlier : List Request} {o : Opt} {q : Problem}
  {stop : Stop}

/-! ## Options and flags that are not mentioned again -/

/-- The text is the option or flag, with a value attached or without. -/
def Named.Spells (n : Named) (text : String) : Prop := ∃ value?, text = Item.text n value?

theorem Opt.spells_spelling (o : Opt) : (Named.opt o).Spells o.spelling :=
  ⟨none, (Item.text_opt o).symm⟩

theorem Opt.spells_value (o : Opt) (value : String) :
    (Named.opt o).Spells (o.spelling ++ "=" ++ value) :=
  ⟨some value, (Item.text_opt_value o value).symm⟩

theorem Flag.spells (f : Flag) : (Named.flag f).Spells ("--" ++ f.name) :=
  ⟨none, (Item.text_flag f).symm⟩

/-- Such a text is read as the name of the option or flag. -/
theorem Named.Spells.ofText {n : Named} {text : String} (h : n.Spells text) :
    ∃ value?, Word.ofText text = .long n.name value? := by
  obtain ⟨value?, rfl⟩ := h
  exact ⟨value?, Item.ofText_text n value?⟩

theorem Named.spells_iff {n : Named} {text : String} :
    n.Spells text ↔ ∃ value?, Word.ofText text = .long n.name value? := by
  refine ⟨Spells.ofText, fun ⟨value?, h⟩ => ⟨value?, ?_⟩⟩
  have htext := Word.is_ofChars text.toList
  rw [← Word.ofText, h] at htext
  rw [Item.text, ← htext, String.ofList_toList]

/-- Whether a text spells an option or flag can be read off its word. -/
instance (n : Named) (text : String) : Decidable (n.Spells text) :=
  decidable_of_iff ((match Word.ofText text with
      | .long name _ => decide (name = n.name)
      | _ => false) = true) <| by
    rw [Named.spells_iff]
    cases Word.ofText text <;> simp

/-- No option and no flag of the requests is in the arguments, but for more of the log. -/
def Unmentioned (earlier : List Request) (b : List String) : Prop :=
  ∀ r ∈ earlier, r ≠ .verbose → ∀ text ∈ b, ¬ r.named.Spells text

theorem Unmentioned.requested_eq_false (h : Unmentioned earlier b) {n : Named}
    (hn : n ≠ .flag .verbose) {text : String} (hspells : n.Spells text) (htext : text ∈ b) :
    requested earlier n = false := by
  rw [requested_eq_false_iff]
  rintro r hr rfl
  exact h r hr (fun hv => hn (Request.named_eq_verbose_iff.mpr hv)) text htext hspells

theorem Unmentioned.opt (h : Unmentioned earlier b) {text : String}
    (hspells : (Named.opt o).Spells text) (htext : text ∈ b) : requested earlier (.opt o) = false :=
  h.requested_eq_false nofun hspells htext

theorem Unmentioned.flag (h : Unmentioned earlier b) {f : Flag} (hf : "--" ++ f.name ∈ b) :
    f = .report → requested earlier (.flag .report) = false := by
  rintro rfl
  exact h.requested_eq_false nofun (Flag.spells .report) hf

theorem Unmentioned.mono (h : Unmentioned earlier b) (hsub : ∀ x ∈ rest, x ∈ b) :
    Unmentioned earlier rest :=
  fun r hr hv text htext => h r hr hv text (hsub text htext)

theorem requested_append (earlier seen : List Request) (n : Named) :
    requested (earlier ++ seen) n = (requested earlier n || requested seen n) :=
  List.any_append

theorem readFlag_behind {f : Flag} (h : f = .report → requested earlier (.flag .report) = false) :
    readFlag (earlier ++ seen) f = (readFlag seen f).map (earlier ++ ·) := by
  cases f with
  | report =>
    simp only [readFlag, requested_append, h rfl, Bool.false_or]
    split <;> simp [Except.map]
  | verbose => simp [readFlag, Except.map]
  | help => rfl

theorem readCluster_behind (cs : List Char) :
    readCluster (earlier ++ seen) cs = (readCluster seen cs).map (earlier ++ ·) := by
  induction cs generalizing seen with
  | nil => rfl
  | cons c cs ih =>
    simp only [readCluster]
    cases hf : Flag.ofShort? c with
    | none => rfl
    | some f =>
      have hreport : f ≠ .report := by
        rintro rfl
        rw [Flag.ofShort?_eq] at hf
        split at hf
        · cases hf
        · split at hf <;> cases hf
      simp only [readFlag_behind fun hr => absurd hr hreport]
      cases readFlag seen f with
      | ok seen' => exact ih
      | error stop => rfl

theorem readValue_behind (h : requested earlier (.opt o) = false) (value : String) :
    readValue (earlier ++ seen) o value = (readValue seen o value).map (earlier ++ ·) := by
  simp only [readValue, requested_append, h, Bool.false_or]
  split
  · rfl
  · cases o.request value <;> simp [Except.map]

/-- By induction on the reading: in each way on, nothing is found to be repeated that would not be
found without the earlier requests. -/
theorem readAfter_behind (h : Unmentioned earlier b) :
    readAfter (earlier ++ seen) b = (readAfter seen b).map (earlier ++ ·) := by
  fun_induction readAfter seen b with
  | case1 => rfl
  | case2 seen argument rest p hitem | case3 seen argument rest hitem =>
    simp only [readAfter, hitem]
    rfl
  | case4 seen argument rest cs hitem seen' hcs ih =>
    simp only [readAfter, hitem, readCluster_behind, hcs]
    exact ih (h.mono fun _ => List.mem_cons_of_mem _)
  | case5 seen argument rest cs hitem stop hcs =>
    simp only [readAfter, hitem, readCluster_behind, hcs]
    rfl
  | case6 seen argument rest f hitem seen' hf ih =>
    obtain rfl := Item.is_ofArgument hitem
    have hnew := h.flag List.mem_cons_self
    simp only [readAfter, hitem, readFlag_behind hnew, hf]
    exact ih (h.mono fun _ => List.mem_cons_of_mem _)
  | case7 seen argument rest f hitem stop hf =>
    obtain rfl := Item.is_ofArgument hitem
    have hnew := h.flag List.mem_cons_self
    simp only [readAfter, hitem, readFlag_behind hnew, hf]
    rfl
  | case8 seen argument rest o value hitem seen' hv ih =>
    obtain rfl := Item.is_ofArgument hitem
    have hnew := h.opt (o.spells_value value) List.mem_cons_self
    simp only [readAfter, hitem, readValue_behind hnew, hv]
    exact ih (h.mono fun _ => List.mem_cons_of_mem _)
  | case9 seen argument rest o value hitem p hv =>
    obtain rfl := Item.is_ofArgument hitem
    have hnew := h.opt (o.spells_value value) List.mem_cons_self
    simp only [readAfter, hitem, readValue_behind hnew, hv]
    rfl
  | case10 seen argument o hitem =>
    simp only [readAfter, hitem]
    rfl
  | case11 seen argument o value rest takes seen' hv hitem ih =>
    obtain rfl := Item.is_ofArgument hitem
    have hnew := h.opt o.spells_spelling List.mem_cons_self
    simp only [readAfter, hitem, takes, readValue_behind hnew, hv]
    exact ih (h.mono fun _ hx => List.mem_cons_of_mem _ (List.mem_cons_of_mem _ hx))
  | case12 seen argument o value rest takes p hv hitem =>
    obtain rfl := Item.is_ofArgument hitem
    have hnew := h.opt o.spells_spelling List.mem_cons_self
    simp only [readAfter, hitem, takes, readValue_behind hnew, hv]
    rfl
  | case13 seen argument o value rest takes hitem =>
    simp only [readAfter, hitem, takes]
    rfl

/-- What accepted arguments ask for is mentioned in them. -/
theorem Groups.exists_spells {arguments : List String} {requests : List Request}
    (h : Groups arguments requests) {r : Request} (hr : r ∈ requests) (hv : r ≠ .verbose) :
    ∃ text ∈ arguments, r.named.Spells text := by
  induction h with
  | done | separator => cases hr
  | @group arguments rest new others first next ih =>
    rcases List.mem_append.mp hr with hr | hr
    · cases first with
      | separate h =>
        obtain rfl := List.mem_singleton.mp hr
        rw [h.named]
        exact ⟨_, List.mem_cons_self, Opt.spells_spelling _⟩
      | attached h =>
        obtain rfl := List.mem_singleton.mp hr
        rw [h.named]
        exact ⟨_, List.mem_cons_self, Opt.spells_value _ _⟩
      | report =>
        obtain rfl := List.mem_singleton.mp hr
        exact ⟨_, List.mem_cons_self, Flag.spells .report⟩
      | verbose => exact absurd (List.mem_singleton.mp hr) hv
      | cluster n => exact absurd (List.eq_of_mem_replicate hr) hv
    · obtain ⟨text, htext, hspells⟩ := ih hr
      exact ⟨text, List.mem_append_right _ htext, hspells⟩

/-! ## Two parts -/

open Standing

/-- Behind accepted arguments that are not mentioned again, the rest is read as on its own. -/
theorem read_append_of_unmentioned (ha : "--" ∉ a) (hread : read a = .ok earlier)
    (h : Unmentioned earlier b) : read (a ++ b) = (read b).map (earlier ++ ·) := by
  rw [read_append ha, (behind_eq_ready_iff ha).mpr hread, resume, read,
    ← readAfter_behind h, List.append_nil]

/-- What ends the reading stays, unless it is a problem with a value at the end. -/
theorem read_append_of_error (ha : "--" ∉ a) (hread : read a = .error stop)
    (hoption : ¬ EndsInOption a) (b : List String) :
    ¬ EndsInValue a ∧ read (a ++ b) = .error stop ∨
      EndsInValue a ∧ ∃ p, stop = .refused p ∧
        read (a ++ b) = .error (.refused (outstanding p b)) := by
  rw [read_eq_resume ha] at hread
  rw [read_append ha]
  cases hbehind : behind a with
  | ready seen =>
    rw [hbehind] at hread
    cases hread
  | waiting seen o => exact absurd ((endsInOption_iff ha).mpr ⟨seen, o, hbehind⟩) hoption
  | pending p =>
    rw [hbehind] at hread
    cases hread
    exact .inr ⟨endsInValue_of_pending ha hbehind, p, rfl, rfl⟩
  | ended stop' =>
    rw [hbehind] at hread
    refine .inl ⟨fun hvalue => ?_, hread⟩
    rcases behind_of_endsInValue ha hvalue with ⟨seen, h⟩ | ⟨p, h⟩ <;>
      exact nomatch hbehind.symm.trans h

/-- A plea for help is no problem with a value, so it stays in any case. -/
theorem read_append_of_help (ha : "--" ∉ a) (hread : read a = .error .help) (b : List String) :
    read (a ++ b) = .error .help := by
  have hoption : ¬ EndsInOption a := by
    rintro h
    obtain ⟨seen, o, hbehind⟩ := (endsInOption_iff ha).mp h
    rw [read_eq_resume ha, hbehind, resume, readAfter, Item.ofArgument_spelling] at hread
    cases hread
  rcases read_append_of_error ha hread hoption b with ⟨-, h⟩ | ⟨-, p, hp, -⟩
  · exact h
  · cases hp

theorem not_endsInOption (h : ∀ o ∈ Opt.all, a.getLast? ≠ some o.spelling) :
    ¬ EndsInOption a := by
  rintro ⟨before, o, -, rfl⟩
  refine h o (by cases o <;> decide) ?_
  rw [List.getLast?_concat]

/-- The first problem, or the first plea for help, is the answer, whatever follows: but for a value
that is still due, and for a problem with the last value, which an argument that is unreadable by
itself goes before. What follows accepted arguments is read as on its own where it mentions none of
their options and flags. -/
theorem first_problem_final (ha : "--" ∉ a) (b : List String) :
    (∀ stop, Invocation.ofArguments a = .error stop → ¬ EndsInOption a →
      ((EndsInValue a → ∀ q, ¬ Unreadable b q) →
        Invocation.ofArguments (a ++ b) = .error stop) ∧
      (EndsInValue a → ∀ q, Unreadable b q →
        Invocation.ofArguments (a ++ b) = .error (.refused q)) ∧
      (Accepted b ∨ Invocation.ofArguments b = .error .help →
        Invocation.ofArguments (a ++ b) = .error stop)) ∧
    (Invocation.ofArguments a = .error .help →
      Invocation.ofArguments (a ++ b) = .error .help) ∧
    (Accepted a →
      (∀ n : Named, n ≠ .flag .verbose → (∃ text ∈ a, n.Spells text) →
        ∀ text ∈ b, ¬ n.Spells text) →
      (Accepted (a ++ b) ↔ Accepted b) ∧
        ∀ stop, Invocation.ofArguments (a ++ b) = .error stop ↔
          Invocation.ofArguments b = .error stop) := by
  simp only [Invocation.ofArguments_eq_error_iff]
  refine ⟨fun stop hread hoption => ?_, fun hread => read_append_of_help ha hread b,
    fun haccepted hb => ?_⟩
  · have hreadable : (EndsInValue a → ∀ q, ¬ Unreadable b q) → read (a ++ b) = .error stop := by
      intro h
      rcases read_append_of_error ha hread hoption b with ⟨-, hsame⟩ | ⟨hvalue, p, rfl, hlate⟩
      · exact hsame
      · rw [hlate, outstanding_of_readable (h hvalue)]
    refine ⟨hreadable, fun hvalue q hq => ?_, fun hb => hreadable fun _ q hq => ?_⟩
    · rcases read_append_of_error ha hread hoption b with ⟨hnot, -⟩ | ⟨-, p, rfl, hlate⟩
      · exact absurd hvalue hnot
      · rw [hlate, outstanding_of_unreadable hq]
    · have hrefused := read_of_unreadable hq
      rcases hb with hb | hb
      · obtain ⟨seen, hseen⟩ := accepted_iff.mp hb
        exact nomatch hseen.symm.trans hrefused
      · exact nomatch hb.symm.trans hrefused
  · obtain ⟨earlier, hearlier⟩ := accepted_iff.mp haccepted
    have hspell := read_eq_ok_iff.mp hearlier
    have hunmentioned : Unmentioned earlier b := fun r hr hv =>
      hb r.named (fun h => hv (Request.named_eq_verbose_iff.mp h))
        (hspell.groups.exists_spells hr hv)
    rw [accepted_iff, accepted_iff, read_append_of_unmentioned ha hearlier hunmentioned]
    cases read b <;> simp [Except.map]

/-- An unknown flag in front of the last argument is final, a wrong value there gives way to an
unknown flag but not to help, and new options are read behind old ones. -/
theorem first_problem_final_late :
    Invocation.ofArguments (["--seed", "-5", "-z", "x"] ++ ["-vh"]) =
        .error (.refused (.unexpected "-z")) ∧
      Invocation.ofArguments (["-v", "--seed", "x"] ++ ["--report=1"]) =
        .error (.refused (.unneededValue .report "1")) ∧
      Invocation.ofArguments (["-v", "--seed", "x"] ++ ["-vh"]) =
        .error (.refused (.badNumber .seed "x" (.unreadable .invalidDigit))) ∧
      Accepted (["-v", "--seed", "5"] ++ ["--input", "-1", "-v", "--"]) := by
  have hvalue : EndsInValue ["-v", "--seed", "x"] := ⟨["-v"], .seed, "x", ⟨_, rfl⟩, rfl, rfl⟩
  have hcluster : ∀ q, ¬ Unreadable ["-vh"] q := fun q hq =>
    nomatch (show Item.ofArgument "-vh" [] = _ from rfl).symm.trans (Item.refused_iff.mpr hq)
  refine ⟨?_, ?_, ?_, ?_⟩
  · exact ((first_problem_final (by decide) _).1 _ rfl
      (not_endsInOption (by decide))).1 fun _ => hcluster
  · exact ((first_problem_final (by decide) _).1 _ rfl
      (not_endsInOption (by decide))).2.1 hvalue _ (@Unreadable.value .report "1" [])
  · exact ((first_problem_final (by decide) _).1 _ rfl
      (not_endsInOption (by decide))).1 fun _ => hcluster
  · refine ((first_problem_final (by decide) _).2.2 ⟨_, rfl⟩ ?_).1.mpr ⟨_, rfl⟩
    rintro n - ⟨text, htext, hspells⟩ other hother hspells'
    obtain ⟨value?, hn⟩ := hspells.ofText
    obtain ⟨value?', hn'⟩ := hspells'.ofText
    have hseed : "seed" = n.name := by
      simp only [List.mem_cons, List.not_mem_nil, or_false] at htext
      rcases htext with rfl | rfl | rfl
      · cases hn
      · exact (Word.long.inj hn).1
      · cases hn
    rw [← hseed] at hn'
    simp only [List.mem_cons, List.not_mem_nil, or_false] at hother
    rcases hother with rfl | rfl | rfl | rfl
    · exact absurd (Word.long.inj hn').1 (by decide)
    · cases hn'
    · cases hn'
    · cases hn'

/-- A wrong value is the answer while it stands last, and no more when an unknown name follows. -/
theorem late_problem_gives_way :
    "--" ∉ ["--seed", "x"] ∧ ¬ EndsInOption ["--seed", "x"] ∧
      Invocation.ofArguments ["--seed", "x"] =
        .error (.refused (.badNumber .seed "x" (.unreadable .invalidDigit))) ∧
      Invocation.ofArguments (["--seed", "x"] ++ ["--bad"]) =
        .error (.refused (.unexpected "--bad")) ∧
      Invocation.ofArguments (["--seed", "x"] ++ ["--bad"]) ≠
        Invocation.ofArguments ["--seed", "x"] :=
  ⟨by decide, not_endsInOption (by decide), rfl, rfl, by decide⟩

end StaticInit.Args
