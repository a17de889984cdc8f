import Retrial.Instances
import Retrial.Number.Numeral

/-!
# Doubles in exact arithmetic

The quantities that programs exchange as binary floating point are kept as
`mantissa * 2 ^ exponent` and computed with exactly: every operation is the
exact result, rounded once to the nearest double, a tie going to the even
mantissa. Only values from zero up are needed.
-/

set_option autoImplicit false

namespace Retrial.Number

def roundHalfEven (num den : Nat) : Nat :=
  let q := num / den
  let r := num % den
  if 2 * r < den then q
  else if den < 2 * r then q + 1
  else if q % 2 == 0 then q else q + 1

def roundHalfUp (num den : Nat) : Nat := (2 * num + den) / (2 * den)

/-- The non-negative real number `mantissa * 2 ^ exponent`. -/
structure Dyadic where
  mantissa : Nat
  exponent : Int
  deriving DecidableEq, Repr

namespace Dyadic

def numerator (d : Dyadic) : Nat := d.mantissa * 2 ^ d.exponent.toNat

def denominator (d : Dyadic) : Nat := 2 ^ (-d.exponent).toNat

def zero : Dyadic := ⟨0, 0⟩

def isZero (d : Dyadic) : Bool := d.mantissa == 0

end Dyadic

inductive Double
  | finite (value : Dyadic)
  | infinite
  deriving DecidableEq, Repr

def significand (num den : Nat) (e : Int) : Nat :=
  roundHalfEven (num * 2 ^ (-e).toNat) (den * 2 ^ e.toNat)

/-- The double nearest to a quotient: 53 bits of significand, fewer below the
smallest normal number, and infinity from `2 ^ 1024` on. -/
def nearest (num den : Nat) : Double :=
  if num == 0 then .finite .zero
  else
    let guess : Int := (num.log2 : Int) - (den.log2 : Int) - 52
    let tooSmall : Bool :=
      num * 2 ^ (-guess).toNat < 2 ^ 52 * (den * 2 ^ guess.toNat)
    let e := max (if tooSmall then guess - 1 else guess) (-1074)
    let m := significand num den e
    if e == 971 && m == 2 ^ 53 || 971 < e then .infinite else .finite ⟨m, e⟩

namespace Double

def scale (d : Double) (k : Nat) : Double :=
  match d with
  | .infinite => .infinite
  | .finite v => nearest (v.numerator * k) v.denominator

def divide (d : Double) (k : Nat) : Double :=
  match d with
  | .infinite => .infinite
  | .finite v => nearest v.numerator (v.denominator * k)

def add : Double → Double → Double
  | .finite a, .finite b =>
    nearest (a.numerator * b.denominator + b.numerator * a.denominator) (a.denominator * b.denominator)
  | _, _ => .infinite

def toNatUpTo (bound : Nat) : Double → Nat
  | .infinite => bound
  | .finite v => min bound (roundHalfUp v.numerator v.denominator)

end Double

/-- Three decimals, correctly rounded, with a tie going to the even digit. -/
def fixedThree (v : Dyadic) : String :=
  let thousandths := roundHalfEven (v.numerator * 1000) v.denominator
  let places := toString (thousandths % 1000)
  toString (thousandths / 1000) ++ "." ++ String.ofList (List.replicate (3 - places.length) '0') ++ places

end Retrial.Number
