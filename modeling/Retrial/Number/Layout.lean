import Retrial.Number.Decimal

/-!
# Laying out numbers

How a number is written when its form is asked for: flags, a least width, and a
number of places. A number that is not whole is rounded once, from its exact
value, with a tie going to the even digit.
-/

set_option autoImplicit false

namespace Retrial.Number

structure Layout where
  left : Bool
  zero : Bool
  plus : Bool
  blank : Bool
  alternate : Bool
  width : Nat
  places : Option Nat
  deriving DecidableEq, Repr

inductive Magnitude
  | number (value : Double)
  | notANumber
  deriving DecidableEq, Repr

namespace Layout

def filled (l : Layout) (cs : List Char) : List Char :=
  let gap := List.replicate (l.width - cs.length) ' '
  if l.left then cs ++ gap else gap ++ cs

def filledNumber (l : Layout) (mayZero : Bool) (front digits : List Char) : List Char :=
  if l.zero && !l.left && mayZero then
    front ++ List.replicate (l.width - front.length - digits.length) '0' ++ digits
  else l.filled (front ++ digits)

def sign (l : Layout) (negative : Bool) : List Char :=
  if negative then ['-'] else if l.plus then ['+'] else if l.blank then [' '] else []

def text (l : Layout) (cs : List Char) : List Char :=
  l.filled (match l.places with
    | some places => cs.take places
    | none => cs)

def digits (l : Layout) (radix : Nat) (n : Nat) : List Char :=
  let ds := if n == 0 && l.places == some 0 then [] else Nat.toDigits radix n
  List.replicate ((l.places.getD 0) - ds.length) '0' ++ ds

def integer (l : Layout) (n : Int) : List Char :=
  l.filledNumber l.places.isNone (l.sign (n < 0)) (l.digits 10 n.natAbs)

def natural (l : Layout) (radix : Nat) (upper : Bool) (n : Nat) : List Char :=
  let ds := l.digits radix n
  let ds := if l.alternate && radix == 8 && ds.head? != some '0' then '0' :: ds else ds
  let front := if l.alternate && radix == 16 && n != 0 then ['0', 'x'] else []
  let cs := l.filledNumber l.places.isNone front ds
  if upper then cs.map Char.toUpper else cs

def pointed (places n : Nat) (keepPoint : Bool) : List Char :=
  let ds := Nat.toDigits 10 n
  let ds := List.replicate (places + 1 - ds.length) '0' ++ ds
  let whole := ds.take (ds.length - places)
  let fraction := ds.drop (ds.length - places)
  if fraction.isEmpty then (if keepPoint then whole ++ ['.'] else whole) else whole ++ '.' :: fraction

def fixed (places : Nat) (keepPoint : Bool) (v : Dyadic) : List Char :=
  pointed places (roundHalfEven (v.numerator * 10 ^ places) v.denominator) keepPoint

def scaledRound (num den : Nat) (power : Int) : Nat :=
  roundHalfEven (num * 10 ^ power.toNat) (den * 10 ^ (-power).toNat)

def decimalExponent (num den : Nat) : Int :=
  let guess : Int := ((num.log2 : Int) - (den.log2 : Int)) * 30103 / 100000
  let reaches (e : Int) : Bool := den * 10 ^ e.toNat ≤ num * 10 ^ (-e).toNat
  if reaches (guess + 1) then guess + 1 else if reaches guess then guess else guess - 1

def significant (places : Nat) (v : Dyadic) : Nat × Int :=
  if v.isZero then (0, 0)
  else
    let e := decimalExponent v.numerator v.denominator
    let n := scaledRound v.numerator v.denominator ((places : Int) - e)
    if 10 ^ (places + 1) ≤ n then (n / 10, e + 1) else (n, e)

def exponentText (e : Int) : List Char :=
  let ds := Nat.toDigits 10 e.natAbs
  'e' :: (if e < 0 then '-' else '+') :: (if ds.length < 2 then '0' :: ds else ds)

def scientific (places : Nat) (keepPoint : Bool) (v : Dyadic) : List Char :=
  let (n, e) := significant places v
  pointed places n keepPoint ++ exponentText e

def withoutZeros (cs : List Char) : List Char :=
  if cs.contains '.' then
    let cs := (cs.reverse.dropWhile (· == '0')).reverse
    if cs.getLast? == some '.' then cs.dropLast else cs
  else cs

def general (count : Nat) (alternate : Bool) (v : Dyadic) : List Char :=
  let count := max count 1
  let e := (significant (count - 1) v).2
  if -4 ≤ e && e < count then
    let cs := fixed ((count : Int) - 1 - e).toNat alternate v
    if alternate then cs else withoutZeros cs
  else
    let (n, e) := significant (count - 1) v
    let cs := pointed (count - 1) n alternate
    (if alternate then cs else withoutZeros cs) ++ exponentText e

def floating (l : Layout) (letter : Char) (negative : Bool) (m : Magnitude) : List Char :=
  let front := l.sign negative
  let cs : List Char := match m with
    | .notANumber => { l with zero := false }.filledNumber false front "nan".toList
    | .number .infinite => { l with zero := false }.filledNumber false front "inf".toList
    | .number (.finite v) =>
      let places := l.places.getD 6
      let body := match letter.toLower with
        | 'e' => scientific places l.alternate v
        | 'g' => general places l.alternate v
        | _ => fixed places l.alternate v
      l.filledNumber true front body
  if letter.isUpper then cs.map Char.toUpper else cs

end Layout

end Retrial.Number
