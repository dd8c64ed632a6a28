import StaticInit.Args.Invocation
import StaticInit.Proofs.Numerals

/-!
# The grammar of command lines

Which arguments belong together and what they ask for (`Group`), and which lists
of arguments make a whole command line (`Spell`): groups one after another, with
no option and no flag but `-v` given twice. What a number is worth is told by
`Numeral.Denotes`, without a reader.

Below the grammar stand the facts about a single argument that both directions
of the reading need:

* `Opt.request_eq_ok_iff`: the values that an option accepts;
* `Word.is_ofChars`: an argument is told from its word;
* `Item.ofArgument_spelling`, `Item.ofArgument_value`, `Item.ofArgument_flag`,
  `Item.ofArgument_cluster`: the items of the grammar's arguments;
* `Item.is_ofArgument`: the argument that an item comes from.
-/

namespace StaticInit.Args

/-! ## Groups -/

/-- The option as an argument. -/
def Opt.spelling : Opt → String
  | .program => "--program"
  | .overrideMode => "--override-mode"
  | .order => "--order"
  | .seed => "--seed"
  | .input => "--input"
  | .warmup => "--warmup"

/-- The values of an option, each with what it asks for. A number has to fit the field it is for. -/
inductive Opt.Value : Opt → String → Request → Prop
  | sum : Value .program "sum" (.program .sum)
  | helloWorld : Value .program "hello-world" (.program .helloWorld)
  | noOp : Value .overrideMode "no-op" (.overrideMode .noOp)
  | chainThrough : Value .overrideMode "chain-through" (.overrideMode .chainThrough)
  | counterFirst : Value .order "counter-first" (.order .counterFirst)
  | sumFirst : Value .order "sum-first" (.order .sumFirst)
  | seed {text : String} {n : Int32} (h : Numeral.Denotes text.toList n.toInt) :
    Value .seed text (.seed n)
  | input {text : String} {n : Int32} (h : Numeral.Denotes text.toList n.toInt) :
    Value .input text (.input n)
  | warmup {text : String} {n : UInt32} (h : Numeral.Denotes text.toList n.toNat) :
    Value .warmup text (.warmup n)

/-- Arguments that belong together, with the requests they make. -/
inductive Group : List String → List Request → Prop
  /-- The number of warmups is not given by an argument of its own that begins with a dash. -/
  | separate {o : Opt} {value : String} {r : Request} (h : o.Value value r)
      (dash : o = .warmup → value.toList.head? ≠ some '-') : Group [o.spelling, value] [r]
  | attached {o : Opt} {value : String} {r : Request} (h : o.Value value r) :
    Group [o.spelling ++ "=" ++ value] [r]
  | report : Group ["--report"] [.report]
  | verbose : Group ["--verbose"] [.verbose]
  | cluster (n : Nat) :
    Group [String.ofList ('-' :: List.replicate (n + 1) 'v')] (List.replicate (n + 1) .verbose)

/-- Groups one after another, and perhaps the separator at the end. -/
inductive Groups : List String → List Request → Prop
  | done : Groups [] []
  | separator : Groups ["--"] []
  | group {arguments rest : List String} {new others : List Request} (first : Group arguments new)
      (next : Groups rest others) : Groups (arguments ++ rest) (new ++ others)

/-- No two requests are made with one option or flag, but for those for more of the log. -/
def NoneTwice (requests : List Request) : Prop :=
  requests.Pairwise fun a b => a.named = b.named → a = .verbose

/-- The arguments spell the requests. -/
structure Spell (arguments : List String) (requests : List Request) : Prop where
  groups : Groups arguments requests
  noneTwice : NoneTwice requests

/-! ## Values -/

namespace Opt

theorem request_words {o : Opt} {choices : List (String × Request)} (ho : o.form = .words choices)
    {value : String} {r : Request} :
    o.request value = .ok r ↔ choices.lookup value = some r := by
  cases hl : choices.lookup value <;> simp [request, ho, hl]

theorem request_integer {o : Opt} {least greatest : Int} {make : Int → Request}
    (ho : o.form = .integer least greatest make) (hleast : -(Numeral.largest + 1 : Int) ≤ least)
    (hgreatest : greatest ≤ Numeral.largest) {value : String} {r : Request} :
    o.request value = .ok r ↔
      ∃ n, Numeral.Denotes value.toList n ∧ (least ≤ n ∧ n ≤ greatest) ∧ make n = r := by
  rw [request, ho]
  constructor
  · intro h
    cases hn : Numeral.read value.toList with
    | error defect => simp only [hn] at h; cases h
    | ok n =>
      simp only [hn] at h
      split at h
      · next hrange => exact ⟨n, (Numeral.read_eq_ok_iff.mp hn).1, hrange, Except.ok.inj h⟩
      · cases h
  · rintro ⟨n, hn, hrange, rfl⟩
    have hread : Numeral.read value.toList = .ok n :=
      Numeral.read_eq_ok_iff.mpr ⟨hn, by omega, by omega⟩
    simp only [hread, if_pos hrange]

theorem lookup_two {a b value : String} (hab : a ≠ b) {x y r : Request} :
    [(a, x), (b, y)].lookup value = some r ↔ value = a ∧ x = r ∨ value = b ∧ y = r := by
  by_cases ha : value = a
  · simp [ha, hab]
  · have hna : (value == a) = false := by simpa using ha
    by_cases hb : value = b
    · subst hb
      simp [List.lookup_cons, hna, hab.symm]
    · have hnb : (value == b) = false := by simpa using hb
      simp [List.lookup_cons, hna, hnb, ha, hb]

theorem denotes_int32_iff {cs : List Char} {make : Int32 → Request} {r : Request} :
    (∃ n, Numeral.Denotes cs n ∧ (-2147483648 ≤ n ∧ n ≤ 2147483647) ∧ make (Int32.ofInt n) = r) ↔
      ∃ n : Int32, Numeral.Denotes cs n.toInt ∧ make n = r := by
  constructor
  · rintro ⟨n, hn, ⟨hleast, hgreatest⟩, rfl⟩
    refine ⟨Int32.ofInt n, ?_, rfl⟩
    rwa [Int32.toInt_ofInt_of_le hleast (by omega)]
  · rintro ⟨n, hn, rfl⟩
    exact ⟨n.toInt, hn, ⟨n.le_toInt, n.toInt_le⟩, by rw [Int32.ofInt_toInt]⟩

theorem denotes_uint32_iff {cs : List Char} {make : UInt32 → Request} {r : Request} :
    (∃ n, Numeral.Denotes cs n ∧ (0 ≤ n ∧ n ≤ 4294967295) ∧
        make (UInt32.ofNat n.toNat) = r) ↔
      ∃ n : UInt32, Numeral.Denotes cs n.toNat ∧ make n = r := by
  constructor
  · rintro ⟨n, hn, ⟨hleast, hgreatest⟩, rfl⟩
    refine ⟨UInt32.ofNat n.toNat, ?_, rfl⟩
    have hsize : n.toNat < UInt32.size := by
      rw [UInt32.size]
      omega
    rwa [UInt32.toNat_ofNat_of_lt' hsize, Int.toNat_of_nonneg hleast]
  · rintro ⟨n, hn, rfl⟩
    have hlt := n.toNat_lt
    exact ⟨n.toNat, hn, ⟨by omega, by omega⟩, by simp⟩

theorem request_eq_ok_iff {o : Opt} {value : String} {r : Request} :
    o.request value = .ok r ↔ o.Value value r := by
  cases o with
  | program | overrideMode | order =>
    rw [request_words rfl, lookup_two (by decide)]
    constructor
    · rintro (⟨rfl, rfl⟩ | ⟨rfl, rfl⟩) <;> constructor
    · rintro (_ | _) <;> simp
  | seed | input =>
    rw [request_integer rfl (by decide) (by decide), denotes_int32_iff]
    constructor
    · rintro ⟨n, h, rfl⟩
      constructor
      exact h
    · intro h
      cases h
      exact ⟨_, ‹_›, rfl⟩
  | warmup =>
    rw [request_integer rfl (by decide) (by decide), denotes_uint32_iff]
    constructor
    · rintro ⟨n, h, rfl⟩
      exact .warmup h
    · intro h
      cases h
      exact ⟨_, ‹_›, rfl⟩

/-- A request tells which option it was made with. -/
theorem Value.named {o : Opt} {value : String} {r : Request} (h : o.Value value r) :
    r.named = .opt o := by
  cases h <;> rfl

end Opt

/-! ## Words -/

namespace Word

/-- What stands behind a long name. -/
def valueChars : Option String → List Char
  | none => []
  | some value => '=' :: value.toList

theorem splitValue_append {name : List Char} (h : '=' ∉ name) (value? : Option String) :
    splitValue (name ++ valueChars value?) = (String.ofList name, value?) := by
  have hname : ∀ c ∈ name, (c != '=') = true := by
    intro c hc
    simpa using fun e : c = '=' => h (e ▸ hc)
  rw [splitValue, List.takeWhile_append_of_pos hname, List.dropWhile_append_of_pos hname]
  cases value? <;> simp [valueChars]

theorem append_splitValue (cs : List Char) :
    (splitValue cs).1.toList ++ valueChars (splitValue cs).2 = cs := by
  have hcs := List.takeWhile_append_dropWhile (p := (· != '=')) (l := cs)
  have hhead := List.head?_dropWhile_not (· != '=') cs
  rw [splitValue]
  cases hd : cs.dropWhile (· != '=') with
  | nil =>
    rw [hd] at hcs
    simpa [valueChars] using hcs
  | cons c value =>
    rw [hd] at hcs hhead
    obtain rfl : c = '=' := by simpa using hhead
    simpa [valueChars] using hcs

theorem ofChars_long {name : List Char} {value? : Option String}
    (hne : name ++ valueChars value? ≠ []) (h : '=' ∉ name) :
    ofChars ('-' :: '-' :: (name ++ valueChars value?)) = .long (String.ofList name) value? := by
  obtain ⟨c, cs, hcs⟩ := List.exists_cons_of_ne_nil hne
  have hlong : ofChars ('-' :: '-' :: (c :: cs)) =
      .long (splitValue (c :: cs)).1 (splitValue (c :: cs)).2 := rfl
  rw [hcs, hlong, ← hcs, splitValue_append h]

/-- The texts that are the word. -/
def Is (cs : List Char) : Word → Prop
  | .separator => cs = ['-', '-']
  | .long name value? => cs = '-' :: '-' :: (name.toList ++ valueChars value?)
  | .cluster first others => cs = '-' :: first :: others
  | .plain => cs = ['-'] ∨ cs.head? ≠ some '-'

theorem is_ofChars (cs : List Char) : Is cs (ofChars cs) := by
  fun_cases ofChars cs with
  | case1 => rfl
  | case2 name hname => rw [Is, append_splitValue]
  | case3 first others hfirst => rfl
  | case4 cs hseparator hlong hcluster =>
    cases cs with
    | nil => exact .inr (by simp)
    | cons c cs =>
      by_cases hc : c = '-'
      · subst hc
        cases cs with
        | nil => exact .inl rfl
        | cons d ds => exact absurd rfl (hcluster d ds)
      · exact .inr (by simpa using hc)

theorem ofChars_plain {cs : List Char} (h : cs.head? ≠ some '-') : ofChars cs = .plain := by
  unfold ofChars
  split <;> first | rfl | exact absurd rfl h

end Word

/-! ## Items -/

theorem Named.ofName?_eq_some_iff {name : String} {n : Named} :
    Named.ofName? name = some n ↔ n.name = name := by
  constructor
  · intro h
    simpa using List.find?_some h
  · rintro rfl
    rcases n with o | f
    · cases o <;> decide
    · cases f <;> decide

theorem Flag.ofShort?_eq (c : Char) :
    Flag.ofShort? c = if c = 'v' then some .verbose else if c = 'h' then some .help else none := by
  by_cases hv : c = 'v'
  · subst hv; decide
  · by_cases hh : c = 'h'
    · subst hh; decide
    · simp [ofShort?, all, short?, hv, hh, Ne.symm hv, Ne.symm hh]

namespace Item

/-- The long form of an option or flag, with a value or without. -/
def text (n : Named) (value? : Option String) : String :=
  String.ofList ('-' :: '-' :: (n.name.toList ++ Word.valueChars value?))

theorem text_flag (f : Flag) : text (.flag f) none = "--" ++ f.name := by
  cases f <;> decide

theorem text_opt (o : Opt) : text (.opt o) none = o.spelling := by
  cases o <;> decide

theorem text_opt_value (o : Opt) (value : String) :
    text (.opt o) (some value) = o.spelling ++ "=" ++ value := by
  rw [← text_opt, ← String.toList_inj]
  simp [text, Word.valueChars]

def ofNamed : Named → Option String → Item
  | .flag f, none => .flag f
  | .flag f, some value => .refused (.unneededValue f value)
  | .opt o, none => .awaiting o
  | .opt o, some value => .attached o value

/-- Such a text is read as the name again, with its value. -/
theorem ofText_text (n : Named) (value? : Option String) :
    Word.ofText (text n value?) = .long n.name value? := by
  have hname : n.name.toList ≠ [] ∧ '=' ∉ n.name.toList := by
    rcases n with o | f
    · cases o <;> decide
    · cases f <;> decide
  have hne := List.append_ne_nil_of_left_ne_nil hname.1 (Word.valueChars value?)
  rw [Word.ofText, text, String.toList_ofList, Word.ofChars_long hne hname.2, String.ofList_toList]

theorem ofArgument_text (n : Named) (value? : Option String) (rest : List String) :
    ofArgument (text n value?) rest = ofNamed n value? := by
  simp only [ofArgument, ofText_text, Named.ofName?_eq_some_iff.mpr rfl]
  rcases n with o | f <;> cases value? <;> rfl

theorem ofArgument_spelling (o : Opt) (rest : List String) :
    ofArgument o.spelling rest = .awaiting o := by
  rw [← text_opt, ofArgument_text]
  rfl

theorem ofArgument_value (o : Opt) (value : String) (rest : List String) :
    ofArgument (o.spelling ++ "=" ++ value) rest = .attached o value := by
  rw [← text_opt_value, ofArgument_text]
  rfl

theorem ofArgument_flag (f : Flag) (rest : List String) :
    ofArgument ("--" ++ f.name) rest = .flag f := by
  rw [← text_flag, ofArgument_text]
  rfl

theorem ofArgument_cluster (n : Nat) (rest : List String) :
    ofArgument (String.ofList ('-' :: List.replicate (n + 1) 'v')) rest =
      .cluster (List.replicate (n + 1) 'v') := by
  have hword : Word.ofText (String.ofList ('-' :: List.replicate (n + 1) 'v')) =
      .cluster 'v' (List.replicate n 'v') := by
    rw [Word.ofText, String.toList_ofList]
    rfl
  simp only [ofArgument, hword, Flag.ofShort?_eq]
  rfl

/-- The arguments that are the item, where it is not refused. -/
def Is (argument : String) (rest : List String) : Item → Prop
  | .refused _ => True
  | .close => argument = "--" ∧ rest = []
  | .cluster cs => cs ≠ [] ∧ argument = String.ofList ('-' :: cs)
  | .flag f => argument = "--" ++ f.name
  | .awaiting o => argument = o.spelling
  | .attached o value => argument = o.spelling ++ "=" ++ value

theorem is_ofNamed (n : Named) (value? : Option String) (rest : List String) :
    Is (text n value?) rest (ofNamed n value?) := by
  rcases n with o | f <;> cases value?
  · exact text_opt o
  · exact text_opt_value o _
  · exact text_flag f
  · trivial

theorem is_ofArgument {argument : String} {rest : List String} {item : Item}
    (h : ofArgument argument rest = item) : item.Is argument rest := by
  have hword : Word.Is argument.toList (Word.ofText argument) := Word.is_ofChars _
  subst h
  cases hw : Word.ofText argument with
  | plain => simp only [ofArgument, hw, Is]
  | separator =>
    rw [hw] at hword
    cases rest with
    | nil =>
      simp only [ofArgument, hw]
      exact ⟨String.toList_inj.mp hword, rfl⟩
    | cons next rest => simp only [ofArgument, hw, Is]
  | cluster c cs =>
    rw [hw] at hword
    simp only [ofArgument, hw]
    split
    · refine ⟨List.cons_ne_nil c cs, ?_⟩
      rw [← String.toList_inj, String.toList_ofList]
      exact hword
    · trivial
  | long name value? =>
    rw [hw] at hword
    cases hn : Named.ofName? name with
    | none => simp only [ofArgument, hw, hn, Is]
    | some n =>
      obtain rfl := Named.ofName?_eq_some_iff.mp hn
      obtain rfl : argument = text n value? := by
        rw [← String.toList_inj, text, String.toList_ofList]
        exact hword
      rw [ofArgument_text]
      exact is_ofNamed n value? rest

end Item

end StaticInit.Args
