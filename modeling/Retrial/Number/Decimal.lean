import Retrial.Number.Double

/-!
# Decimal literals

The text of a number with an optional sign, fraction and power of ten, or one
of the words for infinity and for no number at all. A literal denotes the
double nearest to its exact value.
-/

set_option autoImplicit false

namespace Retrial.Number

inductive Literal
  | notANumber
  | number (negative : Bool) (magnitude : Double)
  deriving DecidableEq, Repr

def isDigit (c : Char) : Bool := '0' ≤ c && c ≤ '9'

def digitsValue (cs : List Char) : Nat :=
  cs.foldl (fun acc c => acc * 10 + (c.toNat - '0'.toNat)) 0

/-- The double nearest to `digits * 10 ^ exponent`. Powers so large or so small
that the answer is infinity or zero are not computed. -/
def decimal (digits : List Char) (exponent : Int) : Double :=
  let significant := digits.dropWhile (· == '0')
  let magnitude : Int := significant.length + exponent
  if significant.isEmpty || magnitude < -330 then .finite .zero
  else if 310 < magnitude then .infinite
  else nearest (digitsValue significant * 10 ^ exponent.toNat) (10 ^ (-exponent).toNat)

def readExponent : List Char → Option Int
  | [] => some 0
  | mark :: rest =>
    if mark == 'e' || mark == 'E' then
      let (negative, digits) : Bool × List Char :=
        match rest with
        | '-' :: ds => (true, ds)
        | '+' :: ds => (false, ds)
        | ds => (false, ds)
      if digits.isEmpty || !digits.all isDigit then none
      else
        let n : Int := digitsValue digits
        some (if negative then -n else n)
    else none

def readMagnitude (cs : List Char) : Option Double :=
  let whole := cs.takeWhile isDigit
  let (fraction, rest) : List Char × List Char :=
    match cs.dropWhile isDigit with
    | '.' :: ds => (ds.takeWhile isDigit, ds.dropWhile isDigit)
    | ds => ([], ds)
  if whole.isEmpty && fraction.isEmpty then none
  else (readExponent rest).map fun e => decimal (whole ++ fraction) (e - fraction.length)

def readWord (cs : List Char) : Option (Option Double) :=
  let word := String.ofList (cs.map Char.toLower)
  if word == "inf" || word == "infinity" then some (some .infinite)
  else if word == "nan" then some none
  else none

def readLiteral (cs : List Char) : Option Literal :=
  let (negative, body) : Bool × List Char :=
    match cs with
    | '-' :: ds => (true, ds)
    | '+' :: ds => (false, ds)
    | ds => (false, ds)
  match readWord body with
  | some none => some .notANumber
  | some (some d) => some (.number negative d)
  | none => (readMagnitude body).map (.number negative)

end Retrial.Number
