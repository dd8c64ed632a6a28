import StaticInit.Proofs.Reading

/-!
# Arguments that are refused for their own spelling

Some arguments are refused wherever they stand in place of an option or flag: a
text, an unknown name, an unknown short flag, a flag with a value, and the
separator with anything behind it. Which they are and what is told of them is
stated on the texts alone (`Unreadable`); the reader refuses just these
(`Item.refused_iff`), and such a refusal goes before a problem with the value in
front of it (`outstanding_of_unreadable`).
-/

namespace StaticInit.Args

variable {arguments rest : List String} {argument value : String} {p q : Problem}

/-- Arguments of which the first is refused for its own spelling, and with which problem. -/
inductive Unreadable : List String → Problem → Prop
  /-- A text where no value is due. -/
  | plain {text : String} {rest : List String} (h : text = "-" ∨ text.toList.head? ≠ some '-') :
    Unreadable (text :: rest) (.unexpected text)
  /-- Whatever stands behind the separator. -/
  | behind {next : String} {rest : List String} :
    Unreadable ("--" :: next :: rest) (.unexpected next)
  /-- An unknown name, with a value or without. -/
  | name {name : List Char} {value? : Option String} {rest : List String}
      (hne : name ++ Word.valueChars value? ≠ []) (heq : '=' ∉ name)
      (unknown : ∀ n : Named, n.name.toList ≠ name) :
    Unreadable (String.ofList ('-' :: '-' :: (name ++ Word.valueChars value?)) :: rest)
      (.unexpected (String.ofList ('-' :: '-' :: name)))
  /-- Short flags of which the first is unknown. -/
  | short {c : Char} {cs : List Char} {rest : List String} (hdash : c ≠ '-') (hv : c ≠ 'v')
      (hh : c ≠ 'h') :
    Unreadable (String.ofList ('-' :: c :: cs) :: rest) (.unexpected (String.ofList ['-', c]))
  /-- A value attached to a flag. -/
  | value {f : Flag} {value : String} {rest : List String} :
    Unreadable (("--" ++ f.name ++ "=" ++ value) :: rest) (.unneededValue f value)

/-! ## Spellings -/

theorem Word.long_of_ofChars {cs : List Char} {name : String} {value? : Option String}
    (h : ofChars cs = .long name value?) :
    name.toList ++ valueChars value? ≠ [] ∧ '=' ∉ name.toList := by
  fun_cases ofChars cs with
  | case2 rest hrest =>
    simp only [ofChars] at h
    obtain ⟨rfl, rfl⟩ := Word.long.inj h
    rw [append_splitValue]
    refine ⟨fun he => hrest (by rw [he]), fun he => ?_⟩
    rw [splitValue, String.toList_ofList] at he
    simpa using List.mem_takeWhile_imp he
  | _ => simp [ofChars] at h

theorem Word.ofChars_cluster_iff {c first : Char} {cs others : List Char} :
    ofChars ('-' :: c :: cs) = .cluster first others ↔ c ≠ '-' ∧ c = first ∧ cs = others := by
  by_cases hc : c = '-'
  · subst hc
    cases cs <;> simp [ofChars]
  · simp [ofChars, hc]

namespace Item

theorem text_flag_value (f : Flag) (value : String) :
    text (.flag f) (some value) = "--" ++ f.name ++ "=" ++ value := by
  rw [← text_flag, ← String.toList_inj]
  simp [text, Word.valueChars]

theorem unreadable_of_refused (h : ofArgument argument rest = .refused q) :
    Unreadable (argument :: rest) q := by
  have hword : Word.Is argument.toList (Word.ofText argument) := Word.is_ofChars _
  cases hw : Word.ofText argument with
  | plain =>
    simp only [ofArgument, hw] at h
    cases h
    rw [hw] at hword
    exact .plain (hword.imp_left fun he => String.toList_inj.mp he)
  | separator =>
    rw [hw] at hword
    obtain rfl : argument = "--" := String.toList_inj.mp hword
    cases rest with
    | nil => simp only [ofArgument, hw] at h; cases h
    | cons next rest =>
      simp only [ofArgument, hw] at h
      cases h
      exact .behind
  | cluster c cs =>
    rw [hw] at hword
    simp only [ofArgument, hw] at h
    split at h
    · cases h
    · next hshort =>
      cases h
      obtain rfl : argument = String.ofList ('-' :: c :: cs) := by
        rw [← String.toList_inj, String.toList_ofList]
        exact hword
      refine .short ?_ ?_ ?_
      · rw [Word.ofText, String.toList_ofList] at hw
        exact (Word.ofChars_cluster_iff.mp hw).1
      · rintro rfl
        exact hshort rfl
      · rintro rfl
        exact hshort rfl
  | long name value? =>
    rw [hw] at hword
    obtain ⟨hne, heq⟩ := Word.long_of_ofChars hw
    simp only [ofArgument, hw] at h
    cases hn : Named.ofName? name with
    | none =>
      simp only [hn] at h
      cases h
      obtain rfl : argument =
          String.ofList ('-' :: '-' :: (name.toList ++ Word.valueChars value?)) := by
        rw [← String.toList_inj, String.toList_ofList]
        exact hword
      have hname : "--" ++ name = String.ofList ('-' :: '-' :: name.toList) := by
        rw [← String.toList_inj]
        simp
      rw [hname]
      refine .name hne heq fun n he => ?_
      rw [Named.ofName?_eq_some_iff.mpr (String.toList_inj.mp he)] at hn
      cases hn
    | some n =>
      obtain rfl := Named.ofName?_eq_some_iff.mp hn
      obtain rfl : argument = text n value? := by
        rw [← String.toList_inj, text, String.toList_ofList]
        exact hword
      rcases n with o | f <;> cases value? <;> simp only [hn] at h <;> cases h
      rw [text_flag_value]
      exact .value

theorem refused_of_unreadable (h : Unreadable (argument :: rest) q) :
    ofArgument argument rest = .refused q := by
  cases h with
  | plain h =>
    have hword : Word.ofText argument = .plain := by
      rcases h with rfl | h
      · decide
      · exact Word.ofChars_plain h
    simp only [ofArgument, hword]
  | behind => rfl
  | @name name value? _ hne heq unknown =>
    have hword : Word.ofText (String.ofList ('-' :: '-' :: (name ++ Word.valueChars value?))) =
        .long (String.ofList name) value? := by
      rw [Word.ofText, String.toList_ofList, Word.ofChars_long hne heq]
    have hnone : Named.ofName? (String.ofList name) = none := by
      refine Option.eq_none_iff_forall_ne_some.mpr fun n hn => unknown n ?_
      rw [Named.ofName?_eq_some_iff.mp hn, String.toList_ofList]
    have htext : "--" ++ String.ofList name = String.ofList ('-' :: '-' :: name) := by
      rw [← String.toList_inj]
      simp
    simp only [ofArgument, hword, hnone, htext]
  | @short c cs _ hdash hv hh =>
    have hword : Word.ofText (String.ofList ('-' :: c :: cs)) = .cluster c cs := by
      rw [Word.ofText, String.toList_ofList]
      exact Word.ofChars_cluster_iff.mpr ⟨hdash, rfl, rfl⟩
    have hnone : Flag.ofShort? c = none := by
      rw [Flag.ofShort?_eq, if_neg hv, if_neg hh]
    simp only [ofArgument, hword, hnone]
    rfl
  | value =>
    rw [← text_flag_value, ofArgument_text]
    rfl

/-- By its own spelling an argument is refused just where it is unreadable. -/
theorem refused_iff :
    ofArgument argument rest = .refused q ↔ Unreadable (argument :: rest) q :=
  ⟨unreadable_of_refused, refused_of_unreadable⟩

end Item

/-! ## What such a refusal goes before -/

theorem Unreadable.exists_cons (h : Unreadable arguments q) :
    ∃ argument rest, arguments = argument :: rest := by
  cases h <;> exact ⟨_, _, rfl⟩

theorem outstanding_of_unreadable (h : Unreadable arguments q) : outstanding p arguments = q := by
  obtain ⟨argument, rest, rfl⟩ := h.exists_cons
  simp only [outstanding, Item.refused_iff.mpr h]

theorem outstanding_of_readable (h : ∀ q, ¬ Unreadable arguments q) :
    outstanding p arguments = p := by
  cases arguments with
  | nil => rfl
  | cons argument rest =>
    simp only [outstanding]
    cases hitem : Item.ofArgument argument rest with
    | refused q => exact absurd (Item.refused_iff.mp hitem) (h q)
    | _ => rfl

/-- Nothing is read of such arguments. -/
theorem read_of_unreadable (h : Unreadable arguments q) :
    read arguments = .error (.refused q) := by
  obtain ⟨argument, rest, rfl⟩ := h.exists_cons
  simp only [read, readAfter, Item.refused_iff.mpr h]

end StaticInit.Args
