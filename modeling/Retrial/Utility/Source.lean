import Retrial.Utility.Options

/-!
# What tools read

What the tools of the child's side are given to read: files by their names, a dash
for the input, and texts as lines.
-/

set_option autoImplicit false

namespace Retrial.Utility

open Retrial.Shell Retrial.Text

def bytesOf (operand : String) : Eval (Except IoFault Bytes) := do
  if operand == "-" then takeAll 0
  else
    match ← openPath .read operand with
    | .error fault => return .error fault
    | .ok index =>
      let s ← get
      match s.opened[index]? with
      | some f =>
        match s.unreadOf f with
        | .ok bytes =>
          set { s with opened := s.opened.set! index { f with position := f.position + bytes.length } }
          return .ok bytes
        | .error fault => return .error fault
      | none => return .error .badDescriptor

def textOf (operand : String) : Eval (Except IoFault (List Char)) := do
  return (← bytesOf operand).map octetsOf

def isOutput (operand : String) : Eval Bool := do
  let s ← get
  let placeOf (stream : Nat) : Option Place := (s.openFile? stream).bind fun (_, f) =>
    match f.channel with
    | .file place => some place
    | _ => none
  let source : Option Place := if operand == "-" then placeOf 0 else (s.files.locate (spelled operand)).toOption
  return source.isSome && source == placeOf 1

def sources (operands : List String) : List String := if operands.isEmpty then ["-"] else operands

def forSources (name : String) (trouble : Nat) (operands : List String)
    (action : String → List Char → Eval Unit) : Eval Nat :=
  (sources operands).foldlM
    (fun status operand => do
      match ← textOf operand with
      | .ok cs =>
        action operand cs
        return status
      | .error fault =>
        tell name (shown operand ++ ": " ++ fault.reason)
        return trouble) 0

def splitEnds (delimiter : Char) (cs : List Char) : List (List Char) :=
  let (last, parts) := cs.foldr
    (fun c (part, parts) => if c == delimiter then ([], (part : List Char) :: parts) else (c :: part, parts))
    (([] : List Char), ([] : List (List Char)))
  -- The part in front of the first delimiter comes first, and an empty rest is none.
  let all := last :: parts
  if (all.getLast?.getD []).isEmpty then all.dropLast else all

def linesIn (cs : List Char) : List (List Char) := splitEnds '\n' cs

def isEnded (delimiter : Char) (cs : List Char) : Bool :=
  match cs.getLast? with
  | some c => c == delimiter
  | none => true

def endedLines (delimiter : Char) (cs : List Char) : List (List Char) :=
  let lines := splitEnds delimiter cs
  if isEnded delimiter cs then lines.map (· ++ [delimiter])
  else lines.dropLast.map (· ++ [delimiter]) ++ (lines.getLast?).toList

def sayChars (cs : List Char) : Eval Unit := sayBytes (bytesOfOctets cs)

def padLeft (width : Nat) (text : String) : String :=
  String.ofList (List.replicate (width - text.length) ' ') ++ text

def count? (cs : List Char) : Option Nat :=
  let ds := cs.takeWhile Char.isDigit
  let units : List (String × Nat) :=
    [("", 1), ("b", 512), ("kB", 1000), ("k", 1024), ("K", 1024), ("KiB", 1024), ("MB", 1000 ^ 2),
      ("M", 1024 ^ 2), ("m", 1024 ^ 2), ("MiB", 1024 ^ 2), ("GB", 1000 ^ 3), ("G", 1024 ^ 3),
      ("GiB", 1024 ^ 3)]
  match (String.ofList ds).toNat?, units.lookup (String.ofList (cs.drop ds.length)) with
  | some n, some unit => some (n * unit)
  | _, _ => none

end Retrial.Utility
