import Mathlib.Data.List.Pairwise
import Mathlib.Data.List.TakeWhile
import StaticInit.Proofs.Grammar

/-!
# Reading follows the grammar

The reader accepts exactly the command lines of the grammar, and makes of each
the requests that it spells (`read_eq_ok_iff`). In both directions the requests
made so far are kept in front, and none of them is made twice:

* `readFlag_eq_ok_iff`, `readCluster_eq_ok_iff`, `readValue_eq_ok_iff`: when one
  flag, cluster or value is accepted after some requests;
* `readAfter_group`, `readAfter_groups`: groups are read;
* `groups_of_readAfter`, `noneTwice_of_readAfter`: what was read are groups, with
  no option and no flag but `-v` given twice.

A value that is an argument of its own is taken where it is plain or a negative
number. For values that an option accepts this excludes only a number of warmups
that begins with a dash (`takes_iff_of_value`).
-/

namespace StaticInit.Args

variable {seen requests : List Request} {o : Opt} {r : Request} {value : String}

/-! ## Repetition -/

theorem Request.named_eq_verbose_iff : r.named = .flag .verbose ↔ r = .verbose := by
  cases r <;> simp [Request.named]

theorem Request.named_eq_report_iff : r.named = .flag .report ↔ r = .report := by
  cases r <;> simp [Request.named]

theorem Opt.Value.ne_verbose (h : o.Value value r) : r ≠ .verbose := by
  cases h <;> exact nofun

theorem requested_eq_false_iff {n : Named} :
    requested seen n = false ↔ ∀ a ∈ seen, a.named ≠ n := by
  simp [requested]

theorem noneTwice_concat_iff :
    NoneTwice (seen ++ [r]) ↔
      NoneTwice seen ∧ (requested seen r.named = false ∨ r = .verbose) := by
  have hnew : (∀ a ∈ seen, a.named = r.named → a = .verbose) ↔
      requested seen r.named = false ∨ r = .verbose := by
    rw [requested_eq_false_iff]
    constructor
    · intro h
      by_cases hr : r = .verbose
      · exact .inr hr
      · refine .inl fun a ha he => hr ?_
        rw [← Request.named_eq_verbose_iff, ← he, Request.named_eq_verbose_iff]
        exact h a ha he
    · rintro (h | rfl) a ha he
      · exact absurd he (h a ha)
      · exact Request.named_eq_verbose_iff.mp he
  simp [NoneTwice, List.pairwise_append, hnew]

theorem NoneTwice.of_append {new : List Request} (h : NoneTwice (seen ++ new)) : NoneTwice seen :=
  (List.pairwise_append.mp h).1

theorem NoneTwice.eq_of_named (h : NoneTwice requests) {a b : Request} (ha : a ∈ requests)
    (hb : b ∈ requests) (hnamed : a.named = b.named) : a = b := by
  have hverbose : ∀ {a b : Request}, a.named = b.named → a = .verbose → b = .verbose := by
    rintro _ b hab rfl
    exact Request.named_eq_verbose_iff.mp hab.symm
  have hsymm : Std.Symm fun a b : Request => a.named = b.named → a = .verbose :=
    ⟨fun a b hab hba => hverbose hba.symm (hab hba.symm)⟩
  by_contra hne
  have hav : a = .verbose := h.forall ha hb hne hnamed
  exact hne (hav.trans (hverbose hnamed hav).symm)

theorem NoneTwice.append_verbose (h : NoneTwice seen) (n : Nat) :
    NoneTwice (seen ++ List.replicate n .verbose) := by
  induction n with
  | zero => simpa using h
  | succ n ih =>
    rw [List.replicate_succ', ← List.append_assoc]
    exact noneTwice_concat_iff.mpr ⟨ih, .inr rfl⟩

/-! ## One request more -/

theorem readFlag_eq_ok_iff {f : Flag} :
    readFlag seen f = .ok requests ↔ ∃ r, r.named = .flag f ∧
      (requested seen r.named = false ∨ r = .verbose) ∧ seen ++ [r] = requests := by
  cases f with
  | report =>
    have hnamed : Request.report.named = .flag .report := rfl
    cases hs : requested seen (.flag .report) <;>
      simp [readFlag, hs, Request.named_eq_report_iff, hnamed]
  | verbose => simp [readFlag, Request.named_eq_verbose_iff]
  | help =>
    have hhelp : ∀ r : Request, r.named ≠ .flag .help := fun r => by
      cases r <;> simp [Request.named]
    simp [readFlag, hhelp]

theorem readValue_eq_ok_iff :
    readValue seen o value = .ok requests ↔ ∃ r, o.Value value r ∧
      requested seen r.named = false ∧ seen ++ [r] = requests := by
  constructor
  · intro h
    unfold readValue at h
    split at h
    · cases h
    · next hs =>
      split at h
      · next r hr =>
        have hvalue := Opt.request_eq_ok_iff.mp hr
        refine ⟨r, hvalue, ?_, Except.ok.inj h⟩
        rw [hvalue.named]
        simpa using hs
      · cases h
  · rintro ⟨r, hvalue, hs, rfl⟩
    rw [hvalue.named] at hs
    simp only [readValue, hs, Opt.request_eq_ok_iff.mpr hvalue]
    rfl

/-- A cluster is read where all its flags are for more of the log. -/
theorem readCluster_eq_ok_iff {cs : List Char} :
    readCluster seen cs = .ok requests ↔ ∃ n, cs = List.replicate n 'v' ∧
      seen ++ List.replicate n .verbose = requests := by
  induction cs generalizing seen with
  | nil =>
    constructor
    · intro h
      exact ⟨0, rfl, by simpa using Except.ok.inj h⟩
    · rintro ⟨n, hn, rfl⟩
      obtain rfl : n = 0 := by simpa using hn
      simp [readCluster]
  | cons c cs ih =>
    rw [readCluster, Flag.ofShort?_eq]
    by_cases hv : c = 'v'
    · subst hv
      rw [if_pos rfl]
      simp only [readFlag, ih]
      constructor
      · rintro ⟨n, rfl, rfl⟩
        exact ⟨n + 1, rfl, by simp [List.replicate_succ]⟩
      · rintro ⟨n, hn, rfl⟩
        cases n with
        | zero => cases hn
        | succ n => exact ⟨n, (List.cons.inj hn).2, by simp [List.replicate_succ]⟩
    · have hnone : ∀ n, c :: cs ≠ List.replicate n 'v' := by
        rintro (_ | n) h
        · cases h
        · exact hv (List.cons.inj h).1
      refine iff_of_false ?_ fun ⟨n, hn, _⟩ => hnone n hn
      by_cases hh : c = 'h' <;> simp [hv, hh, readFlag]

/-! ## Values that are arguments of their own -/

theorem isNegativeNumber_of_denotes {cs : List Char} {n : Int} (h : Numeral.Denotes cs n)
    (hdash : cs.head? = some '-') : isNegativeNumber cs = true := by
  obtain ⟨ds, rfl⟩ : ∃ ds, cs = '-' :: ds := by
    cases cs with
    | nil => cases hdash
    | cons c ds => exact ⟨ds, by rw [Option.some.inj hdash]⟩
  obtain ⟨hdigits, -⟩ := Numeral.denotes_minus_iff.mp h
  obtain ⟨c, ds, rfl⟩ := List.exists_cons_of_ne_nil hdigits.ne_nil
  have hrest : (c :: ds).dropWhile Char.isDigit = [] :=
    List.dropWhile_eq_nil_iff.mpr hdigits.isDigit
  have hc : c.isDigit = true := hdigits.isDigit c List.mem_cons_self
  simp [isNegativeNumber, isUnsignedNumber, hrest, hc]

theorem ofText_plain_iff_of_denotes {n : Int} (h : Numeral.Denotes value.toList n) :
    Word.ofText value = .plain ↔ value.toList.head? ≠ some '-' := by
  constructor
  · intro hplain
    have hword : Word.Is value.toList (Word.ofText value) := Word.is_ofChars _
    rw [hplain] at hword
    refine hword.resolve_left fun hdash => ?_
    rw [hdash, Numeral.denotes_minus_iff] at h
    exact h.1.ne_nil rfl
  · exact Word.ofChars_plain

theorem takes_of_denotes (ho : o.acceptsNegative = true) {n : Int}
    (h : Numeral.Denotes value.toList n) : o.takes value = true := by
  by_cases hdash : value.toList.head? = some '-'
  · simp [Opt.takes, ho, isNegativeNumber_of_denotes h hdash]
  · simp [Opt.takes, (ofText_plain_iff_of_denotes h).mpr hdash]

/-- A value may follow its option, but for a number of warmups with a dash. -/
theorem takes_iff_of_value (h : o.Value value r) :
    o.takes value = true ↔ (o = .warmup → value.toList.head? ≠ some '-') := by
  cases h with
  | seed h => exact iff_of_true (takes_of_denotes rfl h) (by simp)
  | input h => exact iff_of_true (takes_of_denotes rfl h) (by simp)
  | warmup h =>
    simp [Opt.takes, Opt.acceptsNegative, ofText_plain_iff_of_denotes h]
  | _ => exact iff_of_true (by decide) (by simp)

/-! ## Groups -/

theorem readAfter_group {arguments rest : List String} {new : List Request}
    (h : Group arguments new) (hnew : NoneTwice (seen ++ new)) :
    readAfter seen (arguments ++ rest) = readAfter (seen ++ new) rest := by
  have hvalue : ∀ {o value r}, o.Value value r → NoneTwice (seen ++ [r]) →
      readValue seen o value = .ok (seen ++ [r]) := fun {o value r} h hr =>
    readValue_eq_ok_iff.mpr
      ⟨r, h, (noneTwice_concat_iff.mp hr).2.resolve_right h.ne_verbose, rfl⟩
  cases h with
  | separate h dash =>
    simp only [List.cons_append, List.nil_append, readAfter, Item.ofArgument_spelling,
      (takes_iff_of_value h).mpr dash, hvalue h hnew, if_true]
  | attached h =>
    simp only [List.cons_append, List.nil_append, readAfter, Item.ofArgument_value,
      hvalue h hnew]
  | report =>
    have hflag : readFlag seen .report = .ok (seen ++ [.report]) :=
      readFlag_eq_ok_iff.mpr ⟨_, rfl, (noneTwice_concat_iff.mp hnew).2, rfl⟩
    have hitem : Item.ofArgument "--report" rest = .flag .report :=
      Item.ofArgument_flag .report rest
    simp only [List.cons_append, List.nil_append, readAfter, hitem, hflag]
  | verbose =>
    have hitem : Item.ofArgument "--verbose" rest = .flag .verbose :=
      Item.ofArgument_flag .verbose rest
    simp only [List.cons_append, List.nil_append, readAfter, hitem, readFlag]
  | cluster n =>
    have hcluster : readCluster seen (List.replicate (n + 1) 'v') =
        .ok (seen ++ List.replicate (n + 1) .verbose) :=
      readCluster_eq_ok_iff.mpr ⟨n + 1, rfl, rfl⟩
    simp only [List.cons_append, List.nil_append, readAfter, Item.ofArgument_cluster, hcluster]

theorem readAfter_groups {arguments : List String} {new : List Request} (h : Groups arguments new)
    (hnew : NoneTwice (seen ++ new)) : readAfter seen arguments = .ok (seen ++ new) := by
  induction h generalizing seen with
  | done => simp [readAfter]
  | separator =>
    have hitem : Item.ofArgument "--" [] = .close := rfl
    simp [readAfter, hitem]
  | group first next ih =>
    rw [← List.append_assoc] at hnew ⊢
    rw [readAfter_group first hnew.of_append]
    exact ih hnew

/-! ### From the reading to the groups -/

theorem Group.of_readFlag {f : Flag} (h : readFlag seen f = .ok requests) :
    ∃ new, Group ["--" ++ f.name] new ∧ seen ++ new = requests := by
  obtain ⟨r, hr, -, rfl⟩ := readFlag_eq_ok_iff.mp h
  refine ⟨[r], ?_, rfl⟩
  cases r <;> cases hr
  · exact .report
  · exact .verbose

theorem Group.of_readCluster {cs : List Char} (hcs : cs ≠ [])
    (h : readCluster seen cs = .ok requests) :
    ∃ new, Group [String.ofList ('-' :: cs)] new ∧ seen ++ new = requests := by
  obtain ⟨n, rfl, rfl⟩ := readCluster_eq_ok_iff.mp h
  obtain ⟨n, rfl⟩ : ∃ m, n = m + 1 := Nat.exists_eq_succ_of_ne_zero (by simpa using hcs)
  exact ⟨_, .cluster n, rfl⟩

theorem Groups.append_after {arguments rest : List String} {seen' : List Request}
    (first : ∃ new, Group arguments new ∧ seen ++ new = seen')
    (next : ∃ new, Groups rest new ∧ seen' ++ new = requests) :
    ∃ new, Groups (arguments ++ rest) new ∧ seen ++ new = requests := by
  obtain ⟨new, first, rfl⟩ := first
  obtain ⟨others, next, rfl⟩ := next
  exact ⟨new ++ others, .group first next, (List.append_assoc seen new others).symm⟩

/-- By induction on the reading, one case for each way on; where it stops, nothing is claimed. -/
theorem groups_of_readAfter {arguments : List String}
    (h : readAfter seen arguments = .ok requests) :
    ∃ new, Groups arguments new ∧ seen ++ new = requests := by
  fun_induction readAfter seen arguments with
  | case1 seen => exact ⟨[], .done, by simpa using Except.ok.inj h⟩
  | case3 seen argument rest hitem =>
    obtain ⟨rfl, rfl⟩ := Item.is_ofArgument hitem
    exact ⟨[], .separator, by simpa using Except.ok.inj h⟩
  | case4 seen argument rest cs hitem seen' hcs ih =>
    obtain ⟨hne, rfl⟩ := Item.is_ofArgument hitem
    exact Groups.append_after (Group.of_readCluster hne hcs) (ih h)
  | case6 seen argument rest f hitem seen' hf ih =>
    obtain rfl := Item.is_ofArgument hitem
    exact Groups.append_after (Group.of_readFlag hf) (ih h)
  | case8 seen argument rest o value hitem seen' hvalue ih =>
    obtain rfl := Item.is_ofArgument hitem
    obtain ⟨r, hr, -, rfl⟩ := readValue_eq_ok_iff.mp hvalue
    exact Groups.append_after ⟨[r], .attached hr, rfl⟩ (ih h)
  | case11 seen argument o value rest takes seen' hvalue hitem ih =>
    obtain rfl := Item.is_ofArgument hitem
    obtain ⟨r, hr, -, rfl⟩ := readValue_eq_ok_iff.mp hvalue
    exact Groups.append_after ⟨[r], .separate hr ((takes_iff_of_value hr).mp takes), rfl⟩ (ih h)
  | _ => cases h

theorem noneTwice_of_readAfter {arguments : List String} (hseen : NoneTwice seen)
    (h : readAfter seen arguments = .ok requests) : NoneTwice requests := by
  fun_induction readAfter seen arguments with
  | case1 | case3 => exact Except.ok.inj h ▸ hseen
  | case4 seen argument rest cs hitem seen' hcs ih =>
    obtain ⟨n, -, rfl⟩ := readCluster_eq_ok_iff.mp hcs
    exact ih (hseen.append_verbose n) h
  | case6 seen argument rest f hitem seen' hf ih =>
    obtain ⟨r, -, hr, rfl⟩ := readFlag_eq_ok_iff.mp hf
    exact ih (noneTwice_concat_iff.mpr ⟨hseen, hr⟩) h
  | case8 seen argument rest o value hitem seen' hvalue ih =>
    obtain ⟨r, -, hr, rfl⟩ := readValue_eq_ok_iff.mp hvalue
    exact ih (noneTwice_concat_iff.mpr ⟨hseen, .inl hr⟩) h
  | case11 seen argument o value rest takes seen' hvalue hitem ih =>
    obtain ⟨r, -, hr, rfl⟩ := readValue_eq_ok_iff.mp hvalue
    exact ih (noneTwice_concat_iff.mpr ⟨hseen, .inl hr⟩) h
  | _ => cases h

/-- What is read is what the arguments spell. -/
theorem read_eq_ok_iff {arguments : List String} :
    read arguments = .ok requests ↔ Spell arguments requests := by
  constructor
  · intro h
    obtain ⟨new, hnew, rfl⟩ := groups_of_readAfter h
    exact ⟨hnew, noneTwice_of_readAfter .nil h⟩
  · intro h
    exact readAfter_groups h.groups h.noneTwice

end StaticInit.Args
