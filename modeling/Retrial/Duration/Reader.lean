import Retrial.Duration
import Retrial.Number.Numeral
import Retrial.Text.Blank

/-!
# Spans of time as text

A span is a sum of amounts such as `1h 30m`: each amount is a number, with
blanks allowed among its digits, followed by a unit. The text is scanned from
the left, one character at a time, and the first character that cannot be
continued decides what is wrong with it. An amount whose fraction is not a
whole number of the unit's smallest step is refused rather than rounded.
-/

set_option autoImplicit false

namespace Retrial.Duration

open Retrial.Number (maxWord64)
open Retrial.Text (isBlank)

inductive ReadFault
  | empty
  | numberExpected (offset : Nat)
  | invalidCharacter (offset : Nat)
  | unitMissing (amount : Nat)
  | unitUnknown (unit : String)
  | tooLarge
  | sumTooLarge
  deriving DecidableEq, Repr

def ReadFault.message : ReadFault → String
  | .empty => "value was empty"
  | .numberExpected offset => "expected number at " ++ toString offset
  | .invalidCharacter offset => "invalid character at " ++ toString offset
  | .unitMissing n =>
    "time unit needed, for example " ++ toString n ++ "sec or " ++ toString n ++ "ms"
  | .unitUnknown unit =>
    "unknown time unit \"" ++ unit ++ "\", supported units: ns, us/µs, ms, sec, min, hours, days, " ++
      "weeks, months, years (and few variations)"
  | .tooLarge =>
    "number is too large or cannot be represented without a lack of precision " ++
      "(values below 1ns are not supported)"
  | .sumTooLarge => "overflow in Duration::new"

/-- A unit of time. Its amounts are counted in steps, and a fraction of it must
be a whole number of fine steps. Both are seconds or nanoseconds. -/
inductive Scale
  | nanoseconds (fine : Nat)
  | mixed (seconds fine : Nat)
  | seconds (count : Nat)
  deriving DecidableEq, Repr

def units : List (List String × Scale) :=
  [(["nanos", "nsec", "ns"], .nanoseconds 1),
   (["usec", "us", "µs"], .nanoseconds 1000),
   (["millis", "msec", "ms"], .nanoseconds 1000000),
   (["seconds", "second", "secs", "sec", "s"], .mixed 1 1000000000),
   (["minutes", "minute", "min", "mins", "m"], .mixed 60 60000000000),
   (["hours", "hour", "hrs", "hr", "h"], .seconds 3600),
   (["days", "day", "d"], .seconds 86400),
   (["weeks", "week", "wks", "wk", "w"], .seconds 604800),
   (["months", "month", "M"], .seconds 2630016),
   (["years", "year", "yrs", "yr", "y"], .seconds 31557600)]

def scaleOf? (unit : String) : Option Scale :=
  (units.find? (·.1.contains unit)).map (·.2)

structure Fraction where
  numerator : Nat
  denominator : Nat
  deriving DecidableEq, Repr

def product (a b : Nat) : Except ReadFault Nat :=
  if maxWord64 < a * b then .error .tooLarge else .ok (a * b)

def Fraction.steps (f : Fraction) (count : Nat) : Except ReadFault Nat := do
  let n ← product f.numerator count
  if n % f.denominator == 0 then .ok (n / f.denominator) else .error .tooLarge

def extend (sum : Duration) (secs nanos : Nat) : Except ReadFault Duration :=
  let fine := sum.subsecond + nanos
  let total : Duration := ⟨(sum.wholeSeconds + secs) * 1000000000 + fine⟩
  if maxWord64 < fine then .error .tooLarge
  else if total.nanoseconds < bound then .ok total
  else if fine == 1000000000 && sum.wholeSeconds + secs ≤ maxWord64 then .error .sumTooLarge
  else .error .tooLarge

def addAmount (sum : Duration) (whole : Nat) (fraction : Option Fraction) :
    Scale → Except ReadFault Duration
  | .nanoseconds fine => do
    let sum ← extend sum 0 (← product whole fine)
    match fraction with
    | none => .ok sum
    | some f => if fine == 1 then .error .tooLarge else extend sum 0 (← f.steps fine)
  | .mixed secs fine => do
    let sum ← extend sum (← product whole secs) 0
    match fraction with
    | none => .ok sum
    | some f => extend sum 0 (← f.steps fine)
  | .seconds secs => do
    let sum ← extend sum (← product whole secs) 0
    match fraction with
    | none => .ok sum
    | some f => extend sum (← f.steps secs) 0

inductive Place
  | before (start : Nat) (first : Bool)
  | whole (n : Nat)
  | fraction (n : Nat) (digits : Fraction) (edge : Nat)
  | unit (n : Nat) (fraction : Option Fraction) (letters : List Char)
  deriving DecidableEq, Repr

structure Scan where
  sum : Duration
  place : Place
  offset : Nat
  deriving DecidableEq, Repr

def isUnitLetter (c : Char) : Bool :=
  ('a' ≤ c && c ≤ 'z') || ('A' ≤ c && c ≤ 'Z') || c == 'µ'

def digit? (c : Char) : Option Nat :=
  if '0' ≤ c && c ≤ '9' then some (c.toNat - '0'.toNat) else none

def Scan.close (s : Scan) (n : Nat) (fraction : Option Fraction) (letters : List Char) :
    Except ReadFault Duration :=
  match scaleOf? (String.ofList letters) with
  | some scale => addAmount s.sum n fraction scale
  | none => .error (if letters.isEmpty then .unitMissing n else .unitUnknown (String.ofList letters))

def Scan.place? (s : Scan) (c : Char) : Except ReadFault (Duration × Place) :=
  let next := s.offset + c.utf8Size
  match s.place with
  | .before start first =>
    match digit? c with
    | some d => .ok (s.sum, .whole d)
    | none => if isBlank c then .ok (s.sum, .before start first) else .error (.numberExpected start)
  | .whole n =>
    match digit? c with
    | some d =>
      if maxWord64 < n * 10 + d then .error .tooLarge else .ok (s.sum, .whole (n * 10 + d))
    | none =>
      if isBlank c then .ok (s.sum, .whole n)
      else if isUnitLetter c then .ok (s.sum, .unit n none [c])
      else if c == '.' then .ok (s.sum, .fraction n ⟨0, 1⟩ s.offset)
      else .error (.invalidCharacter s.offset)
  | .fraction n f edge =>
    match digit? c with
    | some d =>
      if maxWord64 < f.denominator * 10 then .error .tooLarge
      else .ok (s.sum, .fraction n ⟨f.numerator * 10 + d, f.denominator * 10⟩ next)
    | none =>
      if isBlank c then .ok (s.sum, .fraction n f next)
      else if isUnitLetter c && f.denominator != 1 then .ok (s.sum, .unit n (some f) [c])
      else .error (.invalidCharacter edge)
  | .unit n f letters =>
    match digit? c with
    | some d => (s.close n f letters).map (·, .whole d)
    | none =>
      if isUnitLetter c then .ok (s.sum, .unit n f (letters ++ [c]))
      else if isBlank c then (s.close n f letters).map (·, .before next false)
      else .error (.invalidCharacter s.offset)

def Scan.step (s : Scan) (c : Char) : Except ReadFault Scan :=
  (s.place? c).map fun (sum, place) => ⟨sum, place, s.offset + c.utf8Size⟩

def Scan.finish (s : Scan) : Except ReadFault Duration :=
  match s.place with
  | .before _ true => .error .empty
  | .before _ false => .ok s.sum
  | .whole n => .error (.unitMissing n)
  | .fraction n f edge =>
    if f.denominator == 1 then .error (.invalidCharacter edge) else .error (.unitMissing n)
  | .unit n f letters => s.close n f letters

def scanFrom (s : Scan) : List Char → Except ReadFault Duration
  | [] => s.finish
  | c :: cs => (s.step c).bind (scanFrom · cs)

/-- Reads a span of time; a lone zero needs no unit. -/
def read (cs : List Char) : Except ReadFault Duration :=
  if cs == ['0'] then .ok zero else scanFrom ⟨zero, .before 0 true, 0⟩ cs

end Retrial.Duration
