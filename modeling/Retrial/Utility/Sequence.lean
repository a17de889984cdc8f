import Retrial.Number.Layout
import Retrial.Shell.Print
import Retrial.Utility.Source

/-!
# Sequences of numbers

Numbers that a child's script counts through, from a first to a last one in steps,
with as many decimals as the first and the step are written with.
-/

set_option autoImplicit false

namespace Retrial.Utility

open Retrial.Shell

structure Scaled where
  value : Int
  places : Nat

namespace Scaled

def read? (text : String) : Option Scaled :=
  let cs := text.toList
  let (negative, cs) := match cs with
    | '-' :: cs => (true, cs)
    | '+' :: cs => (false, cs)
    | cs => (false, cs)
  let whole := cs.takeWhile Char.isDigit
  let (places, rest) := match cs.drop whole.length with
    | '.' :: rest => (rest.takeWhile Char.isDigit, rest.dropWhile Char.isDigit)
    | rest => ([], rest)
  let exponent : Option Int := match rest with
    | [] => some 0
    | e :: ds => if e == 'e' || e == 'E' then
        (String.ofList (if ds.head? == some '+' then ds.drop 1 else ds)).toInt? else none
  if whole.isEmpty && places.isEmpty then none
  else
    match (String.ofList (whole ++ places)).toNat?, exponent with
    | some n, some e =>
      let n : Int := if negative then -(n : Int) else n
      let shift : Int := e - places.length
      some (if shift < 0 then ⟨n, shift.natAbs⟩ else ⟨n * 10 ^ shift.natAbs, 0⟩)
    | _, _ => none

def raised (s : Scaled) (places : Nat) : Int := s.value * 10 ^ (places - s.places)

def text (value : Int) (places : Nat) : String :=
  let digits := (toString value.natAbs).toList
  let digits := List.replicate (places + 1 - digits.length) '0' ++ digits
  let whole := digits.take (digits.length - places)
  (if value < 0 then "-" else "") ++ String.ofList whole ++
    if places == 0 then "" else "." ++ String.ofList (digits.drop whole.length)

end Scaled

def sequenceTable : OptionTable :=
  { OptionTable.ofText "f:s:w" [("format=", 'f'), ("separator=", 's'), ("equal-width", 'w')] 1 with inFront := true }

def longestSequence : Nat := 400000

def guardNumbers : List String → List String
  | w :: rest =>
    let isNumber := match w.toList with
      | '-' :: c :: _ => c.isDigit || c == '.'
      | _ => false
    if isNumber then "--" :: w :: rest
    else if !w.startsWith "-" then w :: rest
    else
      match rest with
      | value :: rest =>
        if ["-s", "-f", "--separator", "--format"].contains w then w :: value :: guardNumbers rest
        else w :: guardNumbers (value :: rest)
      | [] => [w]
  | [] => []
  termination_by args => args.length

def formatFault? (format : String) : Option String :=
  let what := "format " ++ quoted format
  let rec behind : Nat → List Char → Option (List Char)
    | 0, _ => none
    | _, [] => none
    | fuel + 1, '%' :: '%' :: cs => behind fuel cs
    | _, '%' :: cs => some cs
    | fuel + 1, _ :: cs => behind fuel cs
  match behind (format.length + 1) format.toList with
  | none => some (what ++ " has no % directive")
  | some cs =>
    match cs.dropWhile fun c => "-+#0 '".toList.contains c || c.isDigit || c == '.' with
    | [] => some (what ++ " ends in %")
    | c :: rest =>
      if !"aefgAEFG".toList.contains c then some (what ++ " has unknown %" ++ String.singleton c ++ " directive")
      else if (behind (rest.length + 1) rest).isSome then some (what ++ " has too many % directives")
      else none

def writeSequence (name : String) (args : List String) : Eval Nat :=
  withOptions sequenceTable name (guardNumbers args) fun o operands => do
    match operands.find? fun w => (Scaled.read? w).isNone, operands with
    | some w, _ => refuse name ("invalid floating point argument: " ++ quoted w) 1
    | none, [] => refuse name "missing operand" 1
    | none, _ :: _ :: _ :: extra :: _ => refuse name ("extra operand " ++ quoted extra) 1
    | none, operands =>
      if let some message := (o.value? 'f').bind formatFault? then
        tell name message
        return 1
      let numbers := operands.filterMap Scaled.read?
      let one : Scaled := ⟨1, 0⟩
      let (first, step, last) := match numbers with
        | [first, step, last] => (first, step, last)
        | [first, last] => (first, one, last)
        | _ => (one, one, numbers.headD one)
      if step.value == 0 then
        refuse name ("invalid Zero increment value: " ++ quoted (operands.getD 1 "")) 1
      else
        let places := max first.places step.places
        let scale := max places last.places
        let (a, d, z) := (first.raised scale, step.raised scale, last.raised scale)
        let count : Nat := if 0 < d then (if z < a then 0 else ((z - a) / d).toNat + 1)
          else if a < z then 0 else ((a - z) / (-d)).toNat + 1
        let isEndless := longestSequence < count
        let values := (List.range (min count longestSequence)).map fun (i : Nat) => a + d * (i : Int)
        let plain (v : Int) : String := Scaled.text (v / 10 ^ (scale - places)) places
        let texts := match o.value? 'f' with
          | some format => values.map fun v =>
            String.ofList (formatted format [Scaled.text v scale]).written.reverse
          | none => values.map plain
        let width := if o.has 'w' then ((plain a :: texts).map (·.length)).foldl max 0 else 0
        let texts := if o.has 'w' then texts.map fun t =>
            let sign := if t.startsWith "-" then "-" else ""
            sign ++ String.ofList (List.replicate (width - t.length) '0') ++ (t.drop sign.length).toString
          else texts
        let separator := (o.value? 's').getD "\n"
        unless texts.isEmpty do say (String.intercalate separator texts ++ "\n")
        if isEndless then throw .outOfTime
        return 0

end Retrial.Utility
