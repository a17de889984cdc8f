import Retrial.Utility.Source

/-!
# Sorted lines

Lines that a child's script puts in the order of keys, and lines that are
repeated.
-/

set_option autoImplicit false

namespace Retrial.Utility

open Retrial.Shell Retrial.Text

inductive KeyOrder
  | text
  | numeric
  deriving DecidableEq, Repr

/-- What of a line is compared, and how. Fields and characters count from one;
an end at character zero is the end of its field. -/
structure Key where
  firstField : Nat
  firstChar : Nat
  last : Option (Nat × Nat)
  order : KeyOrder
  skipsBlanksFront : Bool
  skipsBlanksBack : Bool
  dictionary : Bool
  folds : Bool
  ignoresUnseen : Bool
  reversed : Bool

namespace Key

def whole : Key := ⟨1, 1, none, .text, false, false, false, false, false, false⟩

def isPlain (k : Key) : Bool :=
  k.order == .text && !k.skipsBlanksFront && !k.skipsBlanksBack && !k.dictionary && !k.folds &&
    !k.ignoresUnseen && !k.reversed

def ordered (k other : Key) : Key :=
  { other with firstField := k.firstField, firstChar := k.firstChar, last := k.last }

def addLetter (k : Key) (front back : Bool) : Char → Option Key
  | 'b' => some { k with skipsBlanksFront := k.skipsBlanksFront || front
                         skipsBlanksBack := k.skipsBlanksBack || back }
  | 'd' => some { k with dictionary := true }
  | 'f' => some { k with folds := true }
  | 'i' => some { k with ignoresUnseen := true }
  | 'n' => some { k with order := .numeric }
  | 'r' => some { k with reversed := true }
  | _ => none

end Key

def isSortBlank (c : Char) : Bool := c == ' ' || c == '\t' || c == '\n'

def afterField (separator : Option Char) (cs : List Char) : List Char :=
  match separator with
  | some t => cs.dropWhile (· != t)
  | none => (cs.dropWhile isSortBlank).dropWhile (!isSortBlank ·)

def fromField (separator : Option Char) : Nat → List Char → List Char
  | 0, cs => cs
  | n + 1, cs =>
    let rest := afterField separator cs
    fromField separator n (if separator.isSome then rest.drop 1 else rest)

def Key.part (k : Key) (separator : Option Char) (line : List Char) : List Char :=
  let start := fromField separator (k.firstField - 1) line
  let start := if k.skipsBlanksFront then start.dropWhile isSortBlank else start
  let start := start.drop (k.firstChar - 1)
  match k.last with
  | none => start
  | some (field, char) =>
    let stop :=
      if char == 0 then
        afterField separator (fromField separator (field - 1) line)
      else
        let rest := fromField separator (field - 1) line
        let rest := if k.skipsBlanksBack then rest.dropWhile isSortBlank else rest
        rest.drop char
    start.take (start.length - stop.length)

def leadingNumber (cs : List Char) : Bool × List Char × List Char × List Char :=
  let cs := cs.dropWhile isSortBlank
  let (negative, cs) := match cs with
    | '-' :: cs => (true, cs)
    | cs => (false, cs)
  let digits := cs.takeWhile Char.isDigit
  let (places, rest) := match cs.drop digits.length with
    | '.' :: cs => (cs.takeWhile Char.isDigit, cs.dropWhile Char.isDigit)
    | cs => ([], cs)
  (negative, digits.dropWhile (· == '0'), (places.reverse.dropWhile (· == '0')).reverse, rest)

def compareNat (a b : Nat) : Ordering := compare a b

def compareMagnitudes (a b : List Char × List Char) : Ordering :=
  (compareNat a.1.length b.1.length).then
    ((compare (String.ofList a.1) (String.ofList b.1)).then
      (compare (String.ofList a.2) (String.ofList b.2)))

def compareSigned (a b : Bool × List Char × List Char) (magnitudes : Ordering) : Ordering :=
  let isZero (x : Bool × List Char × List Char) : Bool := x.2.1.isEmpty && x.2.2.isEmpty
  match isZero a, isZero b with
  | true, true => .eq
  | true, false => if b.1 then .gt else .lt
  | false, true => if a.1 then .lt else .gt
  | false, false =>
    match a.1, b.1 with
    | true, false => .lt
    | false, true => .gt
    | true, true => magnitudes.swap
    | false, false => magnitudes

def compareNumeric (a b : List Char) : Ordering :=
  let (n, d, p, _) := leadingNumber a
  let (m, e, q, _) := leadingNumber b
  compareSigned (n, d, p) (m, e, q) (compareMagnitudes (d, p) (e, q))

def compareChars (a b : List Char) : Ordering := compare (String.ofList a) (String.ofList b)

def Key.compareParts (k : Key) (a b : List Char) : Ordering :=
  let ordering := match k.order with
    | .numeric => compareNumeric a b
    | .text =>
      let seen (c : Char) : Bool :=
        (!k.dictionary || isSortBlank c || c.isAlphanum) && (!k.ignoresUnseen || isPrintable c)
      let clean (cs : List Char) : List Char :=
        (cs.filter seen).map fun c => if k.folds then c.toUpper else c
      compareChars (clean a) (clean b)
  if k.reversed then ordering.swap else ordering

structure Sorting where
  keys : List Key
  separator : Option Char
  unique : Bool
  stable : Bool
  /-- Whether lines that all keys find equal are told apart the other way round. -/
  reversed : Bool

def Sorting.byKeys (s : Sorting) (a b : List Char) : Ordering :=
  s.keys.foldl (fun o k => o.then (k.compareParts (k.part s.separator a) (k.part s.separator b))) .eq

def Sorting.compareLines (s : Sorting) (a b : List Char) : Ordering :=
  (s.byKeys a b).then
    (if s.unique || s.stable then .eq
     else if s.reversed then (compareChars a b).swap else compareChars a b)

def Sorting.distinct (s : Sorting) : List (List Char) → List (List Char)
  | a :: b :: rest =>
    if s.byKeys a b == .eq then s.distinct (a :: rest) else a :: s.distinct (b :: rest)
  | lines => lines
  termination_by lines => lines.length

def takeNumber (cs : List Char) : Option (Nat × List Char) :=
  let ds := cs.takeWhile Char.isDigit
  (String.ofList ds).toNat?.map (·, cs.drop ds.length)

def takeKeyEnd (start : Bool) (k : Key) (cs : List Char) : Option ((Nat × Nat) × Key × List Char) := do
  let (field, rest) ← takeNumber cs
  let (char, rest) ← match rest with
    | '.' :: rest => takeNumber rest
    | rest => some (if start then 1 else 0, rest)
  let letters := rest.takeWhile (· != ',')
  let k ← letters.foldlM (fun k c => k.addLetter start (!start) c) k
  return ((field, char), k, rest.drop letters.length)

def readKey (word : String) : Except String Key :=
  let invalid (message : String) : Except String Key := .error (message ++ ": invalid field specification " ++ quoted word)
  match takeKeyEnd true .whole word.toList with
  | none =>
    if (takeNumber word.toList).isNone then
      .error ("invalid number at field start: invalid count at start of " ++ quoted word)
    else invalid "stray character in field spec"
  | some ((field, char), k, rest) =>
    if field == 0 then invalid "field number is zero"
    else if char == 0 then invalid "character offset is zero"
    else
      match rest with
      | [] => .ok { k with firstField := field, firstChar := char }
      | _ :: rest =>
        match takeKeyEnd false k rest with
        | some ((0, _), _, _) => invalid "field number is zero"
        | some ((lastField, lastChar), k, []) =>
          .ok { k with firstField := field, firstChar := char, last := some (lastField, lastChar) }
        | _ =>
          if (takeNumber rest).isNone then
            .error ("invalid number after ',': invalid count at start of " ++ quoted (String.ofList rest))
          else invalid "stray character in field spec"

def sortTable : OptionTable :=
  .ofText "bcCdfik:mno:rsS:t:T:uyz"
    [("ignore-leading-blanks", 'b'), ("check", 'c'), ("check=", 'c'), ("dictionary-order", 'd'),
      ("ignore-case", 'f'), ("ignore-nonprinting", 'i'), ("key=", 'k'), ("merge", 'm'), ("numeric-sort", 'n'),
      ("output=", 'o'), ("reverse", 'r'), ("stable", 's'), ("field-separator=", 't'), ("unique", 'u'),
      ("zero-terminated", 'z')] 2

def disorder? (s : Sorting) (n : Nat) : List (List Char) → Option (Nat × List Char)
  | a :: b :: rest =>
    let o := s.compareLines a b
    if o == .gt || (s.unique && o == .eq) then some (n + 1, b) else disorder? s (n + 1) (b :: rest)
  | _ => none

def sortLines (name : String) (args : List String) : Eval Nat :=
  withOptions sortTable name args fun o operands => do
    let letters := o.map (·.1)
    let usual := letters.foldl (fun (k : Key) c => (k.addLetter true true c).getD k) .whole
    match (o.values 'k').mapM readKey with
    | .error message =>
      tell name message
      return 2
    | .ok keys =>
      let separatorWord := (o.value? 't').map (·.toList)
      let separator : Except String (Option Char) := match separatorWord with
        | none => .ok none
        | some [c] => .ok (some c)
        | some ['\\', '0'] => .ok (some '\x00')
        | some [] => .error "empty tab"
        | some cs => .error ("multi-character tab " ++ quoted (String.ofList cs))
      match separator with
      | .error message =>
        tell name message
        return 2
      | .ok separator =>
        let keys := keys.map fun k => if k.isPlain then k.ordered usual else k
        let s : Sorting :=
          { keys := if keys.isEmpty then [usual] else keys
            separator := separator
            unique := o.has 'u'
            stable := o.has 's'
            reversed := usual.reversed }
        let delimiter := if o.has 'z' then '\x00' else '\n'
        let texts ← (sources operands).mapM fun operand => do return (operand, ← textOf operand)
        let refused := texts.findSome? fun (operand, text) => match text with
          | .error .isADirectory => some ("read failed: " ++ shown operand ++ ": Is a directory")
          | .error fault => some ("cannot read: " ++ shown operand ++ ": " ++ fault.reason)
          | .ok _ => none
        match refused with
        | some message =>
          tell name message
          return 2
        | none =>
          let lines := texts.flatMap fun (_, text) => splitEnds delimiter (text.toOption.getD [])
          let checks := (o.last? ['c', 'C']).map String.singleton
          if checks.isSome && 1 < operands.length then
            tell name ("extra operand " ++ quoted (operands.getD 1 "") ++ " not allowed with -" ++ checks.getD "")
            return 2
          else if checks.isSome then
            match disorder? s 1 lines with
            | none => return 0
            | some (n, line) =>
              if o.has 'c' then
                tell name (shown ((sources operands).headD "-") ++ ":" ++ toString n ++ ": disorder: " ++
                  String.ofList line)
              return 1
          else
            let inOrder (a b : List Char) : Bool := s.compareLines a b != .gt
            let sorted := if o.has 'm' then
                texts.foldl (fun all (_, text) =>
                  all.merge (splitEnds delimiter (text.toOption.getD [])) inOrder) []
              else lines.mergeSort inOrder
            let sorted := if s.unique then s.distinct sorted else sorted
            let text := sorted.flatMap (· ++ [delimiter])
            match o.value? 'o' with
            | none =>
              sayChars text
              return 0
            | some path =>
              match ← openPath .overwrite path with
              | .ok index =>
                modify fun s => s.connect 1 index
                sayChars text
                return 0
              | .error fault =>
                tell name ("open failed: " ++ shown path ++ ": " ++ fault.reason)
                return 2

structure Sameness where
  fields : Nat
  chars : Nat
  width : Option Nat
  folds : Bool

def Sameness.part (s : Sameness) (line : List Char) : List Char :=
  let skipField (cs : List Char) : List Char := (cs.dropWhile isSortBlank).dropWhile (!isSortBlank ·)
  let cs := ((List.range s.fields).foldl (fun cs _ => skipField cs) line).drop s.chars
  let cs := match s.width with
    | some n => cs.take n
    | none => cs
  if s.folds then cs.map Char.toUpper else cs

def Sameness.groups (s : Sameness) (lines : List (List Char)) : List (List (List Char)) :=
  lines.splitBy fun a b => s.part a == s.part b

def uniqueTable : OptionTable :=
  .ofText "cdDf:is:uw:z"
    [("count", 'c'), ("repeated", 'd'), ("skip-fields=", 'f'), ("ignore-case", 'i'), ("skip-chars=", 's'),
      ("unique", 'u'), ("check-chars=", 'w'), ("zero-terminated", 'z')] 1

def showDistinct (name : String) (args : List String) : Eval Nat :=
  withOptions uniqueTable name args fun o operands => do
    let wrong : Option (String × String) :=
      [('f', "fields to skip"), ('s', "bytes to skip"), ('w', "bytes to compare")].findSome? fun (letter, what) =>
        match o.value? letter with
        | some word => if word.toNat?.isNone then some (word, what) else none
        | none => none
    match wrong, operands with
    | some (word, what), _ =>
      tell name (word ++ ": invalid number of " ++ what)
      return 1
    | none, _ :: _ :: extra :: _ => refuse name ("extra operand " ++ quoted extra) 1
    | none, operands =>
      let numberOf (letter : Char) : Option Nat := (o.value? letter).bind String.toNat?
      let s : Sameness := ⟨(numberOf 'f').getD 0, (numberOf 's').getD 0, numberOf 'w', o.has 'i'⟩
      let source := operands.headD "-"
      match ← textOf source with
      | .error fault =>
        tell name (if fault == .isADirectory then "error reading " ++ quoted source ++ ": Is a directory"
          else shown source ++ ": " ++ fault.reason)
        return 1
      | .ok cs =>
        let groups := s.groups (splitEnds (if o.has 'z' then '\x00' else '\n') cs)
        let chosen := groups.filter fun g =>
          let isRepeated := 1 < g.length
          (!(o.has 'd' || o.has 'D') || isRepeated) && (!o.has 'u' || !isRepeated)
        let text := chosen.flatMap fun g =>
          let front := if o.has 'c' then (padLeft 7 (toString g.length)).toList ++ [' '] else []
          (if o.has 'D' then g else g.take 1).flatMap fun line => front ++ line ++ ['\n']
        match operands with
        | [_, target] =>
          match ← openPath .overwrite target with
          | .ok index =>
            modify fun s => s.connect 1 index
            sayChars text
            return 0
          | .error fault =>
            tell name (shown target ++ ": " ++ fault.reason)
            return 1
        | _ =>
          sayChars text
          return 0

end Retrial.Utility
