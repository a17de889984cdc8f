/-!
# Numerals with a bound

Reading a natural number in some radix. A numeral is refused when it has no
digit, when a character is not a digit, or when its value passes the bound;
the characters are judged from the left, so the first offence decides.
-/

set_option autoImplicit false

namespace Retrial.Number

inductive NumeralFault
  | empty
  | invalidDigit
  | tooLarge
  | tooSmall
  deriving DecidableEq, Repr

def NumeralFault.message : NumeralFault → String
  | .empty => "cannot parse integer from empty string"
  | .invalidDigit => "invalid digit found in string"
  | .tooLarge => "number too large to fit in target type"
  | .tooSmall => "number too small to fit in target type"

def digitValue? (c : Char) : Option Nat :=
  if '0' ≤ c && c ≤ '9' then some (c.toNat - '0'.toNat)
  else if 'a' ≤ c && c ≤ 'z' then some (c.toNat - 'a'.toNat + 10)
  else if 'A' ≤ c && c ≤ 'Z' then some (c.toNat - 'A'.toNat + 10)
  else none

def digitIn? (radix : Nat) (c : Char) : Option Nat :=
  (digitValue? c).filter (· < radix)

def readDigits (radix bound : Nat) : Nat → List Char → Except NumeralFault Nat
  | acc, [] => .ok acc
  | acc, c :: cs =>
    match digitIn? radix c with
    | none => .error .invalidDigit
    | some d =>
      if bound < acc * radix + d then .error .tooLarge
      else readDigits radix bound (acc * radix + d) cs

def readUnsigned (radix bound : Nat) (cs : List Char) : Except NumeralFault Nat :=
  match cs with
  | [] => .error .empty
  | _ => readDigits radix bound 0 cs

def readSigned (radix bound : Nat) (cs : List Char) : Except NumeralFault Nat :=
  match cs with
  | ['+'] => .error .invalidDigit
  | '+' :: rest => readUnsigned radix bound rest
  | _ => readUnsigned radix bound cs

/-- Reads digits with an optional sign in front, as an integer from `-(bound + 1)`
up to `bound`. -/
def readInteger (bound : Nat) (cs : List Char) : Except NumeralFault Int :=
  match cs with
  | ['-'] => .error .invalidDigit
  | '-' :: rest =>
    match readUnsigned 10 (bound + 1) rest with
    | .ok n => .ok (-(n : Int))
    | .error .tooLarge => .error .tooSmall
    | .error fault => .error fault
  | _ => (readSigned 10 bound cs).map Int.ofNat

def maxWord32 : Nat := 4294967295

def maxInteger64 : Nat := 9223372036854775807

def maxWord64 : Nat := 18446744073709551615

end Retrial.Number
