/-!
# Numerals

Decimal integers of 64 bits as texts: an optional sign, then one or more ASCII
digits, leading zeros included. The digits are read from the left, and the
reading ends at the first that carries the value out of range, so what comes
after it does not matter; otherwise the first character that is no digit ends it.
-/

namespace StaticInit.Numeral

/-- Why a text is not read as an integer. -/
inductive Defect where
  | empty
  | invalidDigit
  | tooLarge
  | tooSmall
deriving DecidableEq

def Defect.message : Defect → String
  | .empty => "cannot parse integer from empty string"
  | .invalidDigit => "invalid digit found in string"
  | .tooLarge => "number too large to fit in target type"
  | .tooSmall => "number too small to fit in target type"

/-- The value of a decimal digit. -/
def digitValue (c : Char) : Nat := c.toNat - '0'.toNat

/-- Reads on after digits of the value `value`; beyond `limit` the reading ends with `overflow`. -/
def readDigits (limit : Nat) (overflow : Defect) : Nat → List Char → Except Defect Nat
  | value, [] => .ok value
  | value, c :: cs =>
    if c.isDigit then
      if value * 10 + digitValue c ≤ limit then
        readDigits limit overflow (value * 10 + digitValue c) cs
      else .error overflow
    else .error .invalidDigit

/-- The largest integer that can be read; the smallest is one further from zero. -/
def largest : Nat := 9223372036854775807

/-- The integer that a text stands for. A sign alone is no numeral. -/
def read : List Char → Except Defect Int
  | [] => .error .empty
  | '-' :: c :: cs => (readDigits (largest + 1) .tooSmall 0 (c :: cs)).map fun n => -(n : Int)
  | '+' :: c :: cs => (readDigits largest .tooLarge 0 (c :: cs)).map fun n => (n : Int)
  | cs => (readDigits largest .tooLarge 0 cs).map fun n => (n : Int)

end StaticInit.Numeral
