import Retrial.Utility.Source

/-!
# Files as wholes

Tools that show a child's script files from their start to their end, or one part
of them: all, the front or the back.
-/

set_option autoImplicit false

namespace Retrial.Utility

open Retrial.Shell Retrial.Text

structure View where
  numbersAll : Bool
  numbersFilled : Bool
  squeezes : Bool
  showsEnds : Bool
  showsTabs : Bool
  showsOthers : Bool

structure Viewing where
  number : Nat
  atStart : Bool
  blanks : Nat

def visible (tabs : Bool) (c : Char) : List Char :=
  let low (n : Nat) : List Char :=
    if n == 127 then "^?".toList
    else if n < 32 then ['^', Char.ofNat (n + 64)]
    else [Char.ofNat n]
  if c == '\n' || (c == '\t' && !tabs) then [c]
  else if c.toNat < 128 then low c.toNat
  else "M-".toList ++ low (c.toNat - 128)

def View.step (v : View) (s : Viewing) (c : Char) : Viewing × List Char :=
  let isBlank := s.atStart && c == '\n'
  if isBlank && v.squeezes && 1 ≤ s.blanks then (s, [])
  else
    let isNumbered := s.atStart && if v.numbersFilled then c != '\n' else v.numbersAll
    let front := if isNumbered then (padLeft 6 (toString s.number)).toList ++ ['\t'] else []
    let body :=
      if c == '\n' then (if v.showsEnds then ['$', '\n'] else ['\n'])
      else if v.showsOthers then visible v.showsTabs c
      else if c == '\t' && v.showsTabs then "^I".toList
      else [c]
    ({ number := if isNumbered then s.number + 1 else s.number
       atStart := c == '\n'
       blanks := if isBlank then s.blanks + 1 else 0 }, front ++ body)

def View.isPlain (v : View) : Bool :=
  !(v.numbersAll || v.numbersFilled || v.squeezes || v.showsEnds || v.showsTabs || v.showsOthers)

def viewTable : OptionTable :=
  .ofText "AbeEnstTuv"
    [("show-all", 'A'), ("number-nonblank", 'b'), ("show-ends", 'E'), ("number", 'n'), ("squeeze-blank", 's'),
      ("show-tabs", 'T'), ("show-nonprinting", 'v')] 1

def concatenate (name : String) (args : List String) : Eval Nat :=
  withOptions viewTable name args fun o operands => do
    let any (letters : String) : Bool := letters.toList.any o.has
    let v : View := ⟨any "n", any "b", any "s", any "AeE", any "AtT", any "Aetv"⟩
    let (_, status) ← (sources operands).foldlM
      (fun (state : Viewing × Nat) operand => do
        let (s, status) := state
        match ← bytesOf operand with
        | .error fault =>
          tell name (shown operand ++ ": " ++ fault.reason)
          return (s, 1)
        | .ok bytes =>
          if !bytes.isEmpty && (← isOutput operand) then
            tell name (shown operand ++ ": input file is output file")
            return (s, 1)
          else if v.isPlain then
            sayBytes bytes
            return (s, status)
          else
            let (s, written) := (octetsOf bytes).foldl
              (fun (state : Viewing × List Char) c =>
                let (s, cs) := v.step state.1 c
                (s, cs.reverse ++ state.2)) (s, [])
            sayChars written.reverse
            return (s, status)) ((⟨1, true, 0⟩ : Viewing), 0)
    return status

structure Portion where
  bytes : Bool
  count : Nat
  /-- Counted from the other end of the file than usual. -/
  opposite : Bool
  delimiter : Char

def Portion.front (p : Portion) (cs : List Char) : List Char :=
  if p.bytes then
    if p.opposite then cs.take (cs.length - p.count) else cs.take p.count
  else
    let lines := endedLines p.delimiter cs
    (if p.opposite then lines.take (lines.length - p.count) else lines.take p.count).flatten

def Portion.back (p : Portion) (cs : List Char) : List Char :=
  if p.bytes then
    if p.opposite then cs.drop (p.count - 1) else cs.drop (cs.length - p.count)
  else
    let lines := endedLines p.delimiter cs
    (if p.opposite then lines.drop (p.count - 1) else lines.drop (lines.length - p.count)).flatten

/-- Takes the old way to give a count, a number as an option of its own, for
what is written now. -/
def withoutOldCount (signs : List Char) : List String → List String
  | w :: args =>
    match w.toList with
    | sign :: c :: cs =>
      if signs.contains sign && c.isDigit then
        let digits := (c :: cs).takeWhile Char.isDigit
        let letters := (c :: cs).drop digits.length
        let sign := if sign == '+' then "+" else ""
        let unit := if letters.contains 'c' then "-c" else "-n"
        let rest := letters.filter fun c => c != 'c' && c != 'n' && c != 'l'
        (if rest.isEmpty then [] else [String.ofList ('-' :: rest)]) ++
          [unit ++ sign ++ String.ofList digits] ++ args
      else w :: args
    | _ => w :: args
  | [] => []

def portionTable : OptionTable :=
  .ofText "c:n:qvzfFs:"
    [("bytes=", 'c'), ("lines=", 'n'), ("quiet", 'q'), ("silent", 'q'), ("verbose", 'v'), ("zero-terminated", 'z'),
      ("follow[=]", 'f'), ("sleep-interval=", 's')] 1

def showParts (opposite : Char) (part : Portion → List Char → List Char) (name : String)
    (args : List String) : Eval Nat :=
  withOptions portionTable name args fun o operands => do
    let letter := o.last? ['c', 'n']
    let bytes := letter == some 'c'
    let word := ((letter.bind o.value?).getD "10").toList
    let (isOpposite, digits) := match word with
      | c :: cs =>
        if c == opposite then (true, cs) else if c == '-' || c == '+' then (false, cs) else (false, c :: cs)
      | [] => (false, [])
    match count? digits with
    | none =>
      let unit := if bytes then "bytes" else "lines"
      tell name ("invalid number of " ++ unit ++ ": " ++ quoted (String.ofList word))
      return 1
    | some count =>
      let p : Portion := ⟨bytes, count, isOpposite, if o.has 'z' then '\x00' else '\n'⟩
      let all := sources operands
      let hasHeadings := match o.last? ['q', 'v'] with
        | some 'q' => false
        | some _ => true
        | none => 1 < all.length
      let (_, status) ← all.foldlM
        (fun (state : Bool × Nat) operand => do
          let (isFirst, status) := state
          let title := if operand == "-" then "standard input" else operand
          let heading : Eval Unit :=
            if hasHeadings then
              say ((if isFirst then "" else "\n") ++ "==> " ++ title ++ " <==\n")
            else pure ()
          let before := (← get).openFile? 0
          match ← textOf operand with
          | .ok cs =>
            heading
            let taken := part p cs
            sayChars taken
            -- A file is left where the part ends, so that others can go on from there.
            match before with
            | some (index, ⟨.file place, position, r, w, a⟩) =>
              if operand == "-" && opposite == '-' then
                modify fun s =>
                  { s with opened := s.opened.set! index ⟨.file place, position + taken.length, r, w, a⟩ }
            | _ => pure ()
            return (false, status)
          | .error .isADirectory =>
            heading
            tell name ("error reading " ++ quoted title ++ ": Is a directory")
            return (false, 1)
          | .error fault =>
            tell name ("cannot open " ++ quoted operand ++ " for reading: " ++ fault.reason)
            return (isFirst, 1)) (true, 0)
      if o.has 'f' || o.has 'F' then throw .outOfTime
      return status

def head (name : String) (args : List String) : Eval Nat :=
  showParts '-' Portion.front name (withoutOldCount ['-'] args)

def tail (name : String) (args : List String) : Eval Nat :=
  let isDigitAt (w : String) : Option Char := match w.toList with
    | '-' :: c :: _ => if c.isDigit then some c else none
    | _ => none
  if args.length ≤ 2 then showParts '+' Portion.back name (withoutOldCount ['-', '+'] args)
  else
    match (args.head?).bind isDigitAt with
    | some c => do
      tell name ("option used in invalid context -- " ++ String.singleton c)
      return 1
    | none => showParts '+' Portion.back name args

def copyInput (name : String) (args : List String) : Eval Nat :=
  withOptions (.ofText "aip" [("append", 'a'), ("ignore-interrupts", 'i')] 1) name args fun o operands => do
    let opening : Opening := if o.has 'a' then .append else .overwrite
    let opened ← operands.mapM fun operand => do
      if operand == "-" then return none
      else return some (operand, ← openPath opening operand)
    let complaints := opened.filterMap fun
      | some (operand, .error fault) => some (shown operand ++ ": " ++ fault.reason)
      | _ => none
    complaints.forM (tell name)
    let input ← takeAll 0
    let bytes := input.toOption.getD []
    sayBytes bytes
    opened.forM fun
      | some (_, .ok index) => do
        let outer := (← get).descriptors
        modify fun s => s.connect 1 index
        sayBytes bytes
        modify fun s => { s with descriptors := outer }
      | _ => pure ()
    return if complaints.isEmpty then 0 else 1

def repeatLine (_ : String) (args : List String) : Eval Nat := do
  let line := if args.isEmpty then "y" else String.intercalate " " args
  let bytes := bytesOfOctets (line ++ "\n").toList
  let block := (List.replicate (16384 / (line.length + 1) + 1) bytes).flatten
  (List.range 256).forM fun _ => sayBytes block
  throw .outOfTime

end Retrial.Utility
