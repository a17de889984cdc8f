import Retrial.Toml.Value
import Retrial.Number.Numeral

/-!
# Bare values

The values written without quotes or brackets: integers in four radices, other
numbers, truth values, dates and times. A decimal number has no leading zero,
and a digit stands on either side of an underscore. A text that is begun like a
number with underscores passes for a value even if it denotes no number; it
only fails where a number is needed. A bare value may hold gaps, for a date and
the time of the day are written with one between them.
-/

set_option autoImplicit false

namespace Retrial.Toml

open Retrial.Number (digitIn?)

def isDigit (radix : Nat) (c : Char) : Bool := (digitIn? radix c).isSome

def valueOf (radix : Nat) (ds : List Char) : Nat :=
  ds.foldl (fun n c => n * radix + (digitIn? radix c).getD 0) 0

def separates (radix : Nat) : List Char → Bool
  | c :: '_' :: d :: cs => isDigit radix c && isDigit radix d && separates radix (d :: cs)
  | [_, '_'] => false
  | _ :: cs => separates radix cs
  | [] => true

def isSpaced (radix : Nat) (cs : List Char) : Bool := cs.head? != some '_' && separates radix cs

def unsigned (cs : List Char) : Bool × List Char :=
  match cs with
  | '-' :: ds => (true, ds)
  | '+' :: ds => (false, ds)
  | ds => (false, ds)

def denoted (radix : Nat) (negative : Bool) (cs : List Char) : Value :=
  let ds := cs.filter (· != '_')
  if ds.isEmpty || !ds.all (isDigit radix) then .scalar
  else
    let n : Int := valueOf radix ds
    .integer (if negative then -n else n)

def announced? : List Char → Option (Nat × List Char)
  | '0' :: 'x' :: cs => some (16, cs)
  | '0' :: 'o' :: cs => some (8, cs)
  | '0' :: 'b' :: cs => some (2, cs)
  | _ => none

/-- Drops the digits at the front of a number and the underscores among them: at
least one digit, and with `padded` any zeros in front. -/
def dropDigits? (padded : Bool) (cs : List Char) : Option (List Char) :=
  let belongs (c : Char) : Bool := isDigit 10 c || c == '_'
  let count := (cs.takeWhile belongs).countP (isDigit 10)
  if count == 0 || (1 < count && cs.head? == some '0' && !padded) then none
  else some (cs.dropWhile belongs)

def dropFraction? : List Char → Option (List Char)
  | '.' :: cs => dropDigits? true cs
  | cs => some cs

def dropExponent? : List Char → Option (List Char)
  | 'e' :: cs => dropDigits? true (unsigned cs).2
  | 'E' :: cs => dropDigits? true (unsigned cs).2
  | cs => some cs

def isFractional (cs : List Char) : Bool :=
  ((dropDigits? false cs).bind dropFraction?).bind dropExponent? == some []

def takeField? (width : Nat) (cs : List Char) : Option (Nat × List Char) :=
  let ds := cs.take width
  if ds.length == width && ds.all (isDigit 10) then some (valueOf 10 ds, cs.drop width) else none

def daysInMonth (year month : Nat) : Nat :=
  if month == 2 then
    if year % 4 == 0 && (year % 100 != 0 || year % 400 == 0) then 29 else 28
  else if month == 4 || month == 6 || month == 9 || month == 11 then 30
  else 31

def takeDate? (cs : List Char) : Option (List Char) := do
  let (year, cs) ← takeField? 4 cs
  let '-' :: cs := cs | none
  let (month, cs) ← takeField? 2 cs
  let '-' :: cs := cs | none
  let (day, cs) ← takeField? 2 cs
  if 1 ≤ month && month ≤ 12 && 1 ≤ day && day ≤ daysInMonth year month then some cs else none

def takeFraction? (cs : List Char) : Option (List Char) :=
  match cs with
  | '.' :: d :: ds => if isDigit 10 d then some (ds.dropWhile (isDigit 10)) else none
  | '.' :: [] => none
  | cs => some cs

def takeTime? (cs : List Char) : Option (List Char) := do
  let (hour, cs) ← takeField? 2 cs
  let ':' :: cs := cs | none
  let (minute, cs) ← takeField? 2 cs
  if 23 < hour || 59 < minute then none
  else
    match cs with
    | ':' :: cs =>
      let (second, cs) ← takeField? 2 cs
      if 60 < second then none else takeFraction? cs
    | cs => some cs

def isOffset : List Char → Bool
  | [] | ['Z'] | ['z'] => true
  | sign :: cs =>
    (sign == '+' || sign == '-') &&
      match takeField? 2 cs with
      | some (hour, ':' :: cs) =>
        match takeField? 2 cs with
        | some (minute, []) => hour ≤ 23 && minute ≤ 59
        | _ => false
      | _ => false

def isDateTime (cs : List Char) : Bool :=
  takeTime? cs == some [] ||
    match takeDate? cs with
    | some [] => true
    | some (mark :: time) =>
      (mark == 'T' || mark == 't' || mark == ' ') &&
        match takeTime? time with
        | some rest => isOffset rest
        | none => false
    | none => false

/-- What a number or a date denotes. The character behind the leading digits
tells the two apart. -/
def number? (cs : List Char) : Option Value :=
  let (negative, body) := unsigned cs
  let rest := body.dropWhile (isDigit 10)
  match rest with
  | [] =>
    if (dropDigits? false body).isSome then some (denoted 10 negative body) else none
  | c :: _ =>
    if c == '-' || c == ':' then if isDateTime cs then some .scalar else none
    else if rest.contains ' ' then none
    else if rest.any fun d => d == '.' || d == 'e' || d == 'E' then
      if isFractional body && isSpaced 10 cs then some .scalar else none
    else if c == '_' && body.head? != some '0' && isSpaced 16 cs then
      some (denoted 10 negative body)
    else none

def scalar? (cs : List Char) : Option Value :=
  if cs == "true".toList || cs == "false".toList then some .scalar
  else if (unsigned cs).2 == "inf".toList || (unsigned cs).2 == "nan".toList then some .scalar
  else
    match announced? cs with
    | some (radix, ds) =>
      if ds.all (fun c => isDigit radix c || c == '_') && isSpaced radix ds then
        some (denoted radix false ds)
      else none
    | none => number? cs

def isDelimiter (c : Char) : Bool := "=,[]\x7b\x7d \t#\r\n".toList.contains c

def isScalarChar (c : Char) : Bool := !isDelimiter c

def isGap (c : Char) : Bool := c == ' ' || c == '\t'

/-- Cuts a bare value off the front. What stands behind a gap belongs to it, as
the time does to a date, unless it is a quoted text. -/
def takeScalar : Nat → List Char → List Char × List Char
  | 0, cs => ([], cs)
  | fuel + 1, cs =>
    let word := cs.takeWhile isScalarChar
    let rest := cs.dropWhile isScalarChar
    let gap := rest.takeWhile isGap
    match rest.dropWhile isGap with
    | c :: more =>
      if word.isEmpty || gap.isEmpty || isDelimiter c || c == '"' || c == '\'' then (word, rest)
      else
        let (tail, rest) := takeScalar fuel (c :: more)
        (word ++ gap ++ tail, rest)
    | [] => (word, rest)

end Retrial.Toml
