/-! # Unsigned numerals

A numeral is an optional single `+` and then decimal digits. Digits are taken from left to right,
and the first problem met is the one reported. -/

namespace OnePage.Text

inductive NumeralError where
  | empty
  | invalidDigit
  | tooLarge
  deriving DecidableEq, Repr

def NumeralError.message : NumeralError → String
  | empty => "cannot parse integer from empty string"
  | invalidDigit => "invalid digit found in string"
  | tooLarge => "number too large to fit in target type"

namespace Numeral

def digitValue (c : Char) : Nat := c.toNat - '0'.toNat

/-- Reads on after digits of the value `acc`. -/
def readDigits (limit : Nat) : Nat → List Char → Except NumeralError Nat
  | acc, [] => .ok acc
  | acc, c :: cs =>
    if c.isDigit then
      let value := acc * 10 + digitValue c
      if limit < value then .error .tooLarge else readDigits limit value cs
    else .error .invalidDigit

/-- The value of a numeral that is at most `limit`. -/
def read (limit : Nat) : List Char → Except NumeralError Nat
  | [] => .error .empty
  | ['+'] => .error .invalidDigit
  | '+' :: cs => readDigits limit 0 cs
  | cs => readDigits limit 0 cs

@[simp] theorem readDigits_nil (limit acc : Nat) : readDigits limit acc [] = .ok acc := rfl

end Numeral

/-- The greatest port number. -/
def maxPort : Nat := 0xFFFF

/-- The greatest number of seconds that a timeout can be given. -/
def maxSeconds : Nat := 0xFFFFFFFFFFFFFFFF

end OnePage.Text
