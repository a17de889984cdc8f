import Retrial.Utility.Source

/-!
# Counting

The lines, words and bytes of files as they are counted for a child's script, in
columns that are wide enough for the bytes of all of them.
-/

set_option autoImplicit false

namespace Retrial.Utility

open Retrial.Shell Retrial.Text

structure Counts where
  lines : Nat
  words : Nat
  bytes : Nat
  /-- The width of the widest line. -/
  width : Nat

namespace Counts

def zero : Counts := ⟨0, 0, 0, 0⟩

def add (a b : Counts) : Counts :=
  ⟨a.lines + b.lines, a.words + b.words, a.bytes + b.bytes, max a.width b.width⟩

def isSpace (c : Char) : Bool := c == ' ' || ('\t' ≤ c && c ≤ '\x0d')

def wordsIn : Bool → List Char → Nat
  | _, [] => 0
  | inWord, c :: cs =>
    if isSpace c then wordsIn false cs
    else if inWord then wordsIn true cs
    else 1 + wordsIn true cs

def columnAfter (line : List Char) : Nat :=
  (line.foldl (fun (state : Nat × Nat) c =>
    let (column, widest) := state
    let column :=
      if c == '\t' then column + (8 - column % 8)
      else if c == '\x0d' || c == '\x0c' then 0
      else if ' ' ≤ c && c ≤ '~' then column + 1
      else column
    (column, max column widest)) (0, 0)).2

def ofText (cs : List Char) : Counts where
  lines := (cs.filter (· == '\n')).length
  words := wordsIn false cs
  bytes := cs.length
  width := ((linesIn cs).map columnAfter).foldl max 0

end Counts

def countingTable : OptionTable :=
  .ofText "clLmw" [("bytes", 'c'), ("chars", 'm'), ("lines", 'l'), ("words", 'w'), ("max-line-length", 'L')] 1

def sizeOf (operand : String) : Eval (Except IoFault (Option Nat)) := do
  let s ← get
  if operand == "-" then
    match s.openFile? 0 with
    | some (_, f) =>
      match f.channel with
      | .file _ => return .ok (some (s.content f).length)
      | _ => return .ok none
    | none => return .error .badDescriptor
  else if (device? operand).isSome || (streamNamed? operand).isSome then return .ok none
  else
    match s.files.locate (spelled operand) with
    | .error fault => return .error fault
    | .ok place =>
      match s.files.entryAt? place with
      | some (.file content _) => return .ok (some content.length)
      | some _ => return .ok none
      | none => return .error .noSuchEntry

def countWidth (sizes : List (Except IoFault (Option Nat))) : Nat :=
  let known : List (Option Nat) := sizes.filterMap (·.toOption)
  let total := (known.map (·.getD 0)).foldl (· + ·) 0
  max (toString total).length (if known.any (·.isNone) then 7 else 1)

def countWords (name : String) (args : List String) : Eval Nat :=
  withOptions countingTable name args fun o operands => do
    let all := o.isEmpty
    let chosen (c : Counts) : List Nat :=
      (if all || o.has 'l' then [c.lines] else []) ++ (if all || o.has 'w' then [c.words] else []) ++
        (if o.has 'm' then [c.bytes] else []) ++ (if all || o.has 'c' then [c.bytes] else []) ++
        if o.has 'L' then [c.width] else []
    let single := operands.length ≤ 1 && (chosen .zero).length == 1
    let sizes ← (sources operands).mapM sizeOf
    let width := if single then 1 else countWidth sizes
    let line (c : Counts) (title : String) : Eval Unit := do
      let columns := (chosen c).map fun n => padLeft width (toString n)
      let title := if title.isEmpty then "" else " " ++ title
      say (String.intercalate " " columns ++ title ++ "\n")
    let (total, status) ← (sources operands).foldlM
      (fun (state : Counts × Nat) operand => do
        let (total, status) := state
        let title := if operands.isEmpty then "" else shown operand
        match ← textOf operand with
        | .ok cs =>
          let c := Counts.ofText cs
          line c title
          return (total.add c, status)
        | .error fault =>
          let title := if operands.isEmpty then "standard input" else title
          tell name (title ++ ": " ++ fault.reason)
          if fault == .isADirectory then line .zero title
          return (total, 1)) (Counts.zero, 0)
    if 1 < operands.length then line total "total"
    return status

end Retrial.Utility
