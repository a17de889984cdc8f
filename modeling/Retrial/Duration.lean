import Retrial.Number.Double

/-!
# Durations

A span of time in whole nanoseconds. In a transcript a span is shown in
seconds with three decimals, right-aligned in eight columns; the seconds are
first brought to a double, as a clock that counts in floating point would.
-/

set_option autoImplicit false

namespace Retrial

structure Duration where
  nanoseconds : Nat
  deriving DecidableEq, Repr

namespace Duration

open Retrial.Number

def zero : Duration := ⟨0⟩

def ofSeconds (n : Nat) : Duration := ⟨n * 1000000000⟩

def ofMilliseconds (n : Nat) : Duration := ⟨n * 1000000⟩

def ofMicroseconds (n : Nat) : Duration := ⟨n * 1000⟩

def isZero (d : Duration) : Bool := d.nanoseconds == 0

def wholeSeconds (d : Duration) : Nat := d.nanoseconds / 1000000000

def subsecond (d : Duration) : Nat := d.nanoseconds % 1000000000

/-- The first duration too long to be counted: its seconds do not fit 64 bits. -/
def bound : Nat := 2 ^ 64 * 1000000000

def seconds (d : Duration) : Double :=
  (nearest d.wholeSeconds 1).add ((nearest d.subsecond 1).divide 1000000000)

def secondsText (d : Duration) : String :=
  match d.seconds with
  | .finite v => fixedThree v
  | .infinite => "inf"

def bracketed (d : Duration) : String :=
  let t := d.secondsText
  "[" ++ String.ofList (List.replicate (8 - t.length) ' ') ++ t ++ "s]"

def part (count : Nat) (unit : String) : List String :=
  if count == 0 then [] else [toString count ++ unit]

def wordPart (count : Nat) (unit : String) : List String :=
  if count == 0 then []
  else [toString count ++ unit ++ (if 1 < count then "s" else "")]

/-- The parts of a duration from years down to nanoseconds. A year has 365.25
days and a month 30.44. -/
def parts (d : Duration) : List String :=
  let secs := d.wholeSeconds
  let inYear := secs % 31557600
  let inMonth := inYear % 2630016
  let inDay := inMonth % 86400
  let nanos := d.subsecond
  wordPart (secs / 31557600) "year" ++ wordPart (inYear / 2630016) "month" ++
    wordPart (inMonth / 86400) "day" ++ part (inDay / 3600) "h" ++ part (inDay % 3600 / 60) "m" ++
    part (inDay % 60) "s" ++ part (nanos / 1000000) "ms" ++ part (nanos / 1000 % 1000) "us" ++
    part (nanos % 1000) "ns"

def text (d : Duration) : String :=
  if d.isZero then "0s" else String.intercalate " " d.parts

end Duration

end Retrial
