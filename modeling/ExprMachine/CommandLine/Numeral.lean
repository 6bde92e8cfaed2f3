/-! Numerals as they are written on the command line: ASCII digits, with one
plus sign in front if one likes. -/

namespace ExprMachine.CommandLine

inductive NumeralError where
  | empty
  | invalidDigit
  | tooLarge
deriving DecidableEq

def NumeralError.message : NumeralError → String
  | .empty => "cannot parse integer from empty string"
  | .invalidDigit => "invalid digit found in string"
  | .tooLarge => "number too large to fit in target type"

namespace Numeral

/-- Goes on from the digits before, which spell `number`. The first fault counts,
so what follows a digit that takes the number past `limit` is not looked at. -/
def readDigits (limit : Nat) : (number : Nat) → List Char → Except NumeralError Nat
  | number, [] => .ok number
  | number, digit :: rest =>
      if digit.isDigit then
        let next := 10 * number + (digit.toNat - '0'.toNat)
        if next ≤ limit then readDigits limit next rest else .error .tooLarge
      else
        .error .invalidDigit

/-- The number that is written, if it is at most `limit`. A sign needs a digit. -/
def read (limit : Nat) (text : String) : Except NumeralError Nat :=
  match text.toList with
  | [] => .error .empty
  | ['+'] => .error .invalidDigit
  | '+' :: digits => readDigits limit 0 digits
  | digits => readDigits limit 0 digits

end Numeral

end ExprMachine.CommandLine
