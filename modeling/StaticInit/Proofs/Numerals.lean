import Mathlib.Data.List.TakeWhile
import StaticInit.Decimal
import StaticInit.Numeral

/-!
# What a numeral denotes

A numeral is an optional sign and one or more decimal digits, and it denotes an
integer (`Numeral.Denotes`), of any size. The reader accepts exactly the numerals
of 64 bits, and reads from each what it denotes (`Numeral.read_eq_ok_iff`). What the
library writes for a number is a numeral that denotes it, so different numbers are
written differently (`Numeral.signed_inj`, `Numeral.unsigned_inj`).

* `Numeral.readDigits_eq`: the reading of digits in closed form;
* `Numeral.Denotes.unique`: a numeral denotes one integer;
* `Numeral.denotes_repr_int`: decimal text denotes what it was written for.
-/

namespace StaticInit.Numeral

/-- One or more decimal digits. -/
structure Digits (ds : List Char) : Prop where
  ne_nil : ds ≠ []
  isDigit : ∀ c ∈ ds, c.isDigit = true

inductive Denotes : List Char → Int → Prop
  | unsigned {ds : List Char} (h : Digits ds) : Denotes ds (Nat.ofDigitChars 10 ds 0)
  | plus {ds : List Char} (h : Digits ds) : Denotes ('+' :: ds) (Nat.ofDigitChars 10 ds 0)
  | minus {ds : List Char} (h : Digits ds) : Denotes ('-' :: ds) (-(Nat.ofDigitChars 10 ds 0))

theorem le_ofDigitChars (cs : List Char) (value : Nat) :
    value ≤ Nat.ofDigitChars 10 cs value := by
  rw [Nat.ofDigitChars_eq_ofDigitChars_zero]
  have hpow : 1 * value ≤ 10 ^ cs.length * value :=
    Nat.mul_le_mul_right value (Nat.one_le_pow _ _ (by decide))
  omega

/-- What digits come to after others, in one: the value only grows, so it is enough to look at it
where the digits end. -/
theorem readDigits_eq {limit : Nat} {overflow : Defect} {value : Nat} (hvalue : value ≤ limit)
    (cs : List Char) :
    readDigits limit overflow value cs =
      if limit < Nat.ofDigitChars 10 (cs.takeWhile Char.isDigit) value then .error overflow
      else if cs.all Char.isDigit then .ok (Nat.ofDigitChars 10 cs value)
      else .error .invalidDigit := by
  induction cs generalizing value with
  | nil =>
    have hnot : ¬ limit < Nat.ofDigitChars 10 ([].takeWhile Char.isDigit) value := by
      rw [List.takeWhile_nil, Nat.ofDigitChars_nil]
      omega
    rw [if_neg hnot]
    simp [readDigits]
  | cons c cs ih =>
    by_cases hc : c.isDigit = true
    · have hnext : ∀ ds, Nat.ofDigitChars 10 (c :: ds) value =
          Nat.ofDigitChars 10 ds (value * 10 + digitValue c) := fun ds => by
        rw [Nat.ofDigitChars_cons, Nat.mul_comm, digitValue]
      rw [readDigits, if_pos hc, List.takeWhile_cons_of_pos hc, hnext, hnext]
      split
      · next hle =>
        rw [ih hle, List.all_cons, hc, Bool.true_and]
      · next hlt =>
        have hgrow := le_ofDigitChars (cs.takeWhile Char.isDigit) (value * 10 + digitValue c)
        rw [if_pos (by omega)]
    · have hnot : ¬ limit < Nat.ofDigitChars 10 ((c :: cs).takeWhile Char.isDigit) value := by
        rw [List.takeWhile_cons_of_neg hc, Nat.ofDigitChars_nil]
        omega
      have hall : ¬ (c :: cs).all Char.isDigit = true := fun h =>
        hc (List.all_eq_true.mp h c List.mem_cons_self)
      rw [readDigits, if_neg hc, if_neg hnot, if_neg hall]

theorem readDigits_eq_ok_iff {limit : Nat} {overflow : Defect} {value n : Nat} {cs : List Char}
    (hvalue : value ≤ limit) :
    readDigits limit overflow value cs = .ok n ↔
      (∀ c ∈ cs, c.isDigit = true) ∧ Nat.ofDigitChars 10 cs value = n ∧ n ≤ limit := by
  rw [readDigits_eq hvalue, ← List.all_eq_true]
  by_cases hall : cs.all Char.isDigit = true
  · rw [List.takeWhile_eq_self_iff.mpr (List.all_eq_true.mp hall)]
    split
    · next hlt =>
      refine iff_of_false nofun ?_
      rintro ⟨-, rfl, hle⟩
      omega
    · next hle =>
      rw [Except.ok.injEq, and_iff_right hall]
      omega
  · refine iff_of_false ?_ fun h => hall h.1
    rw [if_neg hall]
    split <;> exact nofun

/-- One or more digits are read as their value, which then goes through `f`. -/
theorem map_readDigits_eq_ok_iff {limit : Nat} {overflow : Defect} {c : Char} {cs : List Char}
    {f : Int → Int} {n : Int} :
    (do return ((← readDigits limit overflow 0 (c :: cs)) : Int)).map f = .ok n ↔
      Digits (c :: cs) ∧ f (Nat.ofDigitChars 10 (c :: cs) 0) = n ∧
        Nat.ofDigitChars 10 (c :: cs) 0 ≤ limit := by
  have hread : ∀ m, readDigits limit overflow 0 (c :: cs) = .ok m ↔
      (∀ d ∈ c :: cs, d.isDigit = true) ∧ Nat.ofDigitChars 10 (c :: cs) 0 = m ∧ m ≤ limit :=
    fun m => readDigits_eq_ok_iff (Nat.zero_le limit)
  constructor
  · intro h
    cases hm : readDigits limit overflow 0 (c :: cs) with
    | error defect => rw [hm] at h; cases h
    | ok m =>
      rw [hm] at h
      obtain ⟨hdigits, rfl, hle⟩ := (hread m).mp hm
      exact ⟨⟨List.cons_ne_nil c cs, hdigits⟩, Except.ok.inj h, hle⟩
  · rintro ⟨hdigits, rfl, hle⟩
    rw [(hread _).mpr ⟨hdigits.isDigit, rfl, hle⟩]
    rfl

/-! ## Signs -/

theorem Digits.not_sign {c : Char} {cs : List Char} (h : Digits (c :: cs)) :
    c ≠ '-' ∧ c ≠ '+' := by
  have hc := h.isDigit c List.mem_cons_self
  constructor <;> rintro rfl <;> exact absurd hc (by decide)

theorem denotes_minus_iff {ds : List Char} {n : Int} :
    Denotes ('-' :: ds) n ↔ Digits ds ∧ -(Nat.ofDigitChars 10 ds 0 : Int) = n := by
  constructor
  · intro h
    cases h with
    | unsigned h => exact absurd rfl h.not_sign.1
    | minus h => exact ⟨h, rfl⟩
  · rintro ⟨h, rfl⟩
    exact .minus h

theorem denotes_plus_iff {ds : List Char} {n : Int} :
    Denotes ('+' :: ds) n ↔ Digits ds ∧ (Nat.ofDigitChars 10 ds 0 : Int) = n := by
  constructor
  · intro h
    cases h with
    | unsigned h => exact absurd rfl h.not_sign.2
    | plus h => exact ⟨h, rfl⟩
  · rintro ⟨h, rfl⟩
    exact .plus h

/-- Without digits behind it, a sign is no sign. -/
theorem denotes_unsigned_iff {cs : List Char} {n : Int}
    (hminus : ∀ c ds, cs ≠ '-' :: c :: ds) (hplus : ∀ c ds, cs ≠ '+' :: c :: ds) :
    Denotes cs n ↔ Digits cs ∧ (Nat.ofDigitChars 10 cs 0 : Int) = n := by
  constructor
  · intro h
    cases h with
    | unsigned h => exact ⟨h, rfl⟩
    | plus h =>
      obtain ⟨c, ds, rfl⟩ := List.exists_cons_of_ne_nil h.ne_nil
      exact absurd rfl (hplus c ds)
    | minus h =>
      obtain ⟨c, ds, rfl⟩ := List.exists_cons_of_ne_nil h.ne_nil
      exact absurd rfl (hminus c ds)
  · rintro ⟨h, rfl⟩
    exact .unsigned h

/-- A text denotes one number at most. -/
theorem Denotes.unique {cs : List Char} {m n : Int} (hm : Denotes cs m) (hn : Denotes cs n) :
    m = n := by
  cases hm with
  | unsigned h =>
    cases hn with
    | unsigned _ => rfl
    | plus _ => exact absurd rfl h.not_sign.2
    | minus _ => exact absurd rfl h.not_sign.1
  | plus _ => exact (denotes_plus_iff.mp hn).2
  | minus _ => exact (denotes_minus_iff.mp hn).2

/-- The reader accepts the numerals of 64 bits, and reads what they denote. -/
theorem read_eq_ok_iff {cs : List Char} {n : Int} :
    read cs = .ok n ↔ Denotes cs n ∧ -(largest + 1 : Int) ≤ n ∧ n ≤ largest := by
  unfold read
  split
  · constructor
    · intro h; cases h
    · rintro ⟨h, -⟩
      cases h with
      | unsigned h => exact absurd rfl h.ne_nil
  · next c cs =>
    rw [map_readDigits_eq_ok_iff, denotes_minus_iff, and_assoc]
    refine and_congr_right fun _ => and_congr_right fun hn => ?_
    omega
  · next c cs =>
    rw [map_readDigits_eq_ok_iff, denotes_plus_iff, and_assoc]
    refine and_congr_right fun _ => and_congr_right fun hn => ?_
    omega
  · next cs hnil hminus hplus =>
    obtain ⟨c, ds, rfl⟩ := List.exists_cons_of_ne_nil hnil
    rw [map_readDigits_eq_ok_iff, denotes_unsigned_iff hminus hplus, and_assoc]
    refine and_congr_right fun _ => and_congr_right fun hn => ?_
    omega

/-! ## Decimal text -/

theorem digits_repr (n : Nat) : Digits n.repr.toList where
  ne_nil := by
    rw [Nat.toList_repr]
    exact Nat.toDigits_ne_nil
  isDigit c hc := by
    rw [Nat.toList_repr] at hc
    exact Nat.isDigit_of_mem_toDigits (by decide) (by decide) hc

theorem ofDigitChars_repr (n : Nat) : Nat.ofDigitChars 10 n.repr.toList 0 = n := by
  rw [Nat.toList_repr, Nat.ofDigitChars_ten_toDigits]

theorem denotes_repr (n : Nat) : Denotes n.repr.toList n := by
  have h : Denotes n.repr.toList (Nat.ofDigitChars 10 n.repr.toList 0) :=
    .unsigned (digits_repr n)
  rwa [ofDigitChars_repr] at h

theorem denotes_neg_repr (n : Nat) : Denotes ('-' :: n.repr.toList) (-n) := by
  rw [denotes_minus_iff, ofDigitChars_repr]
  exact ⟨digits_repr n, rfl⟩

theorem denotes_unsigned (x : UInt32) : Denotes (Decimal.unsigned x).toList x.toNat :=
  denotes_repr x.toNat

theorem denotes_repr_int (n : Int) : Denotes n.repr.toList n := by
  cases n with
  | ofNat n => exact denotes_repr n
  | negSucc n =>
    have htext : (Int.negSucc n).repr.toList = '-' :: (n + 1).repr.toList := by
      rw [Int.repr, String.toList_append]
      rfl
    rw [htext]
    exact denotes_neg_repr (n + 1)

theorem denotes_signed (x : Int32) : Denotes (Decimal.signed x).toList x.toInt :=
  denotes_repr_int x.toInt

theorem signed_inj {x y : Int32} : Decimal.signed x = Decimal.signed y ↔ x = y := by
  refine ⟨fun h => ?_, congrArg _⟩
  have hx := denotes_signed x
  rw [h] at hx
  exact Int32.toInt_inj.mp (hx.unique (denotes_signed y))

theorem unsigned_inj {x y : UInt32} : Decimal.unsigned x = Decimal.unsigned y ↔ x = y := by
  refine ⟨fun h => ?_, congrArg _⟩
  have hx := denotes_unsigned x
  rw [h] at hx
  exact UInt32.toNat_inj.mp (Int.ofNat_inj.mp (hx.unique (denotes_unsigned y)))

end StaticInit.Numeral
