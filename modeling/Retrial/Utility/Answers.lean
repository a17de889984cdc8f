import Retrial.Shell.Builtin
import Retrial.Utility.Listing

/-!
# Short answers

Tools of the child's side that print their words or answer a question by their
status.
-/

set_option autoImplicit false

namespace Retrial.Utility

open Retrial.Shell Retrial.Text

def echoEscapes : Nat → List Char → List Char × Bool
  | 0, _ => ([], false)
  | _, [] => ([], false)
  | fuel + 1, '\\' :: c :: cs =>
    let put (d : Char) (rest : List Char) : List Char × Bool :=
      let (more, ended) := echoEscapes fuel rest
      (d :: more, ended)
    match c with
    | 'c' => ([], true)
    | '0' =>
      let ds := octals 3 cs
      put (octalChar ds) (cs.drop ds.length)
    | 'x' =>
      let isHex (c : Char) : Bool := c.isDigit || ('a' ≤ c.toLower && c.toLower ≤ 'f')
      let ds := (cs.take 2).takeWhile isHex
      let value := ds.foldl (fun n d =>
        n * 16 + (if d.isDigit then d.toNat - 48 else d.toLower.toNat - 87)) 0
      if ds.isEmpty then
        let (more, ended) := put 'x' cs
        ('\\' :: more, ended)
      else put (Char.ofNat value) (cs.drop ds.length)
    | c =>
      match escapeChar? c with
      | some d => put d cs
      | none =>
        let (more, ended) := put c cs
        ('\\' :: more, ended)
  | fuel + 1, c :: cs =>
    let (more, ended) := echoEscapes fuel cs
    (c :: more, ended)

def echoWords (_ : String) (args : List String) : Eval Nat := do
  let isOption (w : String) : Bool :=
    match w.toList with
    | '-' :: c :: cs => (c :: cs).all fun c => c == 'n' || c == 'e' || c == 'E'
    | _ => false
  let options := args.takeWhile isOption
  let words := args.drop options.length
  let letters := options.flatMap (·.toList)
  let escapes := (letters.filter fun c => c == 'e' || c == 'E').getLast? == some 'e'
  let text := (String.intercalate " " words).toList
  let (cs, ended) := if escapes then echoEscapes (text.length + 1) text else (text, false)
  sayChars (if ended || letters.contains 'n' then cs else cs ++ ['\n'])
  return 0

def printWords (name : String) (args : List String) : Eval Nat := do
  let args := if args.head? == some "--" then args.drop 1 else args
  match args with
  | [] => refuse name "missing operand" 1
  | format :: args =>
    let f := formatted format args
    f.complaints.forM (tell name)
    sayChars f.written.reverse
    match f.refusal with
    | some message =>
      tell name message
      return 1
    | none => return if f.complaints.isEmpty then 0 else 1

def answerCondition (name : String) (words : List String) : Eval Nat := do
  match Condition.holds (← get).files words with
  | .ok holds => return if holds then 0 else 1
  | .error message =>
    tell name message
    return 2

def answerBracketed (name : String) (args : List String) : Eval Nat := do
  if args.getLast? == some "]" then answerCondition name args.dropLast
  else
    tell name "missing ']'"
    return 2

def tellWorkingDirectory (_ : String) (_ : List String) : Eval Nat := do
  say (octets ("/" ++ String.intercalate "/" (← get).files.workingDirectory) ++ "\n")
  return 0

end Retrial.Utility
