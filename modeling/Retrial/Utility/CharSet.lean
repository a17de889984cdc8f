import Retrial.Shell.Print
import Retrial.Utility.Source

/-!
# Sets of characters

How a set of characters is written in a word for a tool of the child's side: the
characters in order, with escapes, ranges between two of them, repetitions, and
classes by name. With two sets the characters of the first are replaced by those
of the second; where that is shorter, its last one stands for the rest.
-/

set_option autoImplicit false

namespace Retrial.Utility

open Retrial.Shell

inductive SetPiece
  | chars (cs : List Char)
  | named (name : String) (cs : List Char)
  | repeated (c : Char) (count : Option Nat)

def between (first last : Nat) : List Char :=
  (List.range (last + 1 - first)).map fun i => Char.ofNat (first + i)

def allChars : List Char := between 0 255

def classChars? (name : String) : Option (List Char) :=
  let chosen (f : Char → Bool) : Option (List Char) := some (allChars.filter f)
  match name with
  | "alnum" => chosen Char.isAlphanum
  | "alpha" => chosen Char.isAlpha
  | "blank" => chosen fun c => c == ' ' || c == '\t'
  | "cntrl" => chosen fun c => c < ' ' || c == '\x7f'
  | "digit" => chosen Char.isDigit
  | "graph" => chosen fun c => isPrintable c && c != ' '
  | "lower" => chosen Char.isLower
  | "print" => chosen isPrintable
  | "punct" => chosen fun c => isPrintable c && c != ' ' && !c.isAlphanum
  | "space" => chosen fun c => c == ' ' || ('\t' ≤ c && c ≤ '\x0d')
  | "upper" => chosen Char.isUpper
  | "xdigit" => chosen fun c => c.isDigit || ('a' ≤ c.toLower && c.toLower ≤ 'f')
  | _ => none

def setUnits : Nat → List Char → List (Char × Bool)
  | 0, _ => []
  | _, [] => []
  | fuel + 1, '\\' :: c :: cs =>
    let ds := octals 3 (c :: cs)
    if ds.isEmpty then
      let d := if c == 'e' then c else (escapeChar? c).getD c
      (d, true) :: setUnits fuel cs
    else
      let ds := if 255 < octalValue ds then ds.take 2 else ds
      (octalChar ds, true) :: setUnits fuel ((c :: cs).drop ds.length)
  | fuel + 1, c :: cs => (c, c == '\\' && cs.isEmpty) :: setUnits fuel cs

def untilMark (first second : Char) : List (Char × Bool) → Option (List Char × List (Char × Bool))
  | (a, false) :: (b, false) :: rest =>
    if a == first && b == second then some ([], rest)
    else (untilMark first second ((b, false) :: rest)).map fun (cs, rest) => (a :: cs, rest)
  | (a, _) :: rest => (untilMark first second rest).map fun (cs, rest) => (a :: cs, rest)
  | [] => none

def takeRepetition : List (Char × Bool) → Option (SetPiece × List (Char × Bool))
  | ('[', false) :: (c, _) :: ('*', false) :: rest =>
    let ds := (rest.map (·.1)).takeWhile Char.isDigit
    match rest.drop ds.length with
    | (']', false) :: rest =>
      let n := if ds.head? == some '0' then octalValue ds else ((String.ofList ds).toNat?).getD 0
      some (.repeated c (if n == 0 then none else some n), rest)
    | _ => none
  | _ => none

def readPieces : Nat → List (Char × Bool) → Except String (List SetPiece)
  | 0, _ => .ok []
  | _, [] => .ok []
  | fuel + 1, us =>
    let next (p : SetPiece) (rest : List (Char × Bool)) : Except String (List SetPiece) := do
      return p :: (← readPieces fuel rest)
    let plain : Except String (List SetPiece) :=
      match us with
      | (a, _) :: ('-', false) :: (b, _) :: rest =>
        if b < a then
          .error ("range-endpoints of " ++ quoted (String.ofList [a, '-', b]) ++
            " are in reverse collating sequence order")
        else next (.chars (between a.toNat b.toNat)) rest
      | (a, _) :: rest => next (.chars [a]) rest
      | [] => .ok []
    match us with
    | ('[', false) :: (':', false) :: more =>
      match untilMark ':' ']' more with
      | some (name, rest) =>
        match classChars? (String.ofList name) with
        | some cs => next (.named (String.ofList name) cs) rest
        | none => .error ("invalid character class " ++ quoted (String.ofList name))
      | none => plain
    | ('[', false) :: ('=', false) :: more =>
      match untilMark '=' ']' more with
      | some ([c], rest) => next (.chars [c]) rest
      | some (cs, _) =>
        .error (String.ofList cs ++ ": equivalence class operand must be a single character")
      | none => plain
    | us =>
      match takeRepetition us with
      | some (p, rest) => next p rest
      | none => plain

/-- The characters of a set; a repetition without a count makes it as long as wanted. -/
def spread (wanted : Nat) (pieces : List SetPiece) : List Char :=
  let size : SetPiece → Nat
    | .chars cs | .named _ cs => cs.length
    | .repeated _ count => count.getD 0
  let missing := wanted - (pieces.map size).foldl (· + ·) 0
  pieces.flatMap fun
    | .chars cs | .named _ cs => cs
    | .repeated c count => List.replicate (count.getD missing) c

/-- The characters of a set that are replaced, and those that take their places.
A change of case is from one class to the other. -/
def replacements (complemented truncated : Bool) (first second : List SetPiece) :
    Except String (List (Char × Char)) :=
  let isCase (name : String) : Bool := name == "upper" || name == "lower"
  let hasCases := second.any fun
    | .named name _ => isCase name
    | _ => false
  let hasOthers := second.any fun
    | .named name _ => !isCase name
    | _ => false
  if hasOthers then
    .error "when translating, the only character classes that may appear in\nstring2 are 'upper' and 'lower'"
  else
    let plain := spread 0 first
    let source := if complemented then allChars.filter fun c => !plain.contains c else plain
    let target := spread source.length second
    let pairs :=
      if target.length < source.length && !truncated then
        source.zip (target ++ List.replicate (source.length - target.length) ((target.getLast?).getD ' '))
      else source.zip target
    if target.isEmpty && !truncated && !source.isEmpty then
      .error "when not truncating set1, string2 must be non-empty"
    else if hasCases && complemented then
      .error "when translating with complemented character classes,\nstring2 must map all characters in the domain to one"
    else .ok pairs

def squeezed (isIn : Char → Bool) : List Char → List Char
  | a :: b :: rest =>
    if a == b && isIn a then squeezed isIn (b :: rest) else a :: squeezed isIn (b :: rest)
  | cs => cs

def replaceTable : OptionTable :=
  { OptionTable.ofText "cCdst"
      [("complement", 'c'), ("delete", 'd'), ("squeeze-repeats", 's'), ("truncate-set1", 't')] 1 with
    inFront := true }

def replaceChars (name : String) (args : List String) : Eval Nat :=
  withOptions replaceTable name args fun o operands => do
    let deletes := o.has 'd'
    let squeezes := o.has 's'
    let complemented := o.has 'c' || o.has 'C'
    let least := if deletes == squeezes then 2 else 1
    let most := if deletes && !squeezes then 1 else 2
    let note (text : String) : String := if text.isEmpty then "" else "\n" ++ text
    match operands with
    | [] => refuse name "missing operand" 1
    | [a] =>
      if least == 2 then
        refuse name ("missing operand after " ++ quoted a ++ note
          (if squeezes then "Two strings must be given when both deleting and squeezing repeats."
           else "Two strings must be given when translating.")) 1
      else run deletes squeezes complemented o a none
    | a :: b :: more =>
      if most < operands.length then
        let extra := if most == 1 then b else more.headD ""
        refuse name ("extra operand " ++ quoted extra ++ note
          (if most == 1 && operands.length == 2 then
            "Only one string may be given when deleting without squeezing repeats." else "")) 1
      else run deletes squeezes complemented o a (some b)
where
  setOf (word : String) : Except String (List SetPiece) :=
    let units := setUnits (word.length + 1) word.toList
    readPieces (units.length + 1) units
  run (deletes squeezes complemented : Bool) (o : Chosen) (first : String) (second : Option String) :
      Eval Nat := do
    let sets : Except String (List SetPiece × List SetPiece) := do
      return (← setOf first, ← setOf (second.getD ""))
    match sets with
    | .error message =>
      tell name message
      return 1
    | .ok (ps, qs) =>
      let plain := spread 0 ps
      let inFirst (c : Char) : Bool := plain.contains c != complemented
      let work (f : List Char → List Char) : Eval Nat := do
        match ← takeAll 0 with
        | .ok bytes =>
          sayChars (f (Retrial.Text.octetsOf bytes))
          return 0
        | .error fault =>
          tell name ("read error: " ++ fault.reason)
          return 1
      if deletes then
        let inSecond (c : Char) : Bool := (spread 0 qs).contains c
        work fun cs =>
          let kept := cs.filter (!inFirst ·)
          if squeezes then squeezed inSecond kept else kept
      else if second.isNone then work (squeezed inFirst)
      else
        match replacements complemented (o.has 't') ps qs with
        | .error message =>
          tell name message
          return 1
        | .ok pairs =>
          -- The last place of a character counts.
          let table := pairs.reverse
          let targets := pairs.map (·.2)
          work fun cs =>
            let replaced := cs.map fun c => (table.lookup c).getD c
            if squeezes then squeezed targets.contains replaced else replaced

end Retrial.Utility
