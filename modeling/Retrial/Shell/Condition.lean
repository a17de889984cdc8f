import Retrial.Shell.Arithmetic
import Retrial.Shell.Stream
import Retrial.Shell.System

/-!
# Conditions

The test command of a child's script: questions about files, texts and integers,
joined by words for and, or and not. Three words with an operator in the middle
are always a comparison; otherwise a word that could be an operator is one if what
follows it allows that.
-/

set_option autoImplicit false

namespace Retrial.Shell.Condition

open Retrial.Text

inductive Role
  | unary
  | binary
  | negation
  | conjunction
  | disjunction
  | opening
  | closing
  deriving DecidableEq, Repr

def role? (word : String) : Option Role :=
  if ["-r", "-w", "-x", "-e", "-f", "-d", "-c", "-b", "-p", "-u", "-g", "-k", "-s", "-t", "-z", "-n", "-h",
      "-O", "-G", "-L", "-S"].contains word then some .unary
  else if ["=", "!=", "<", ">", "-eq", "-ne", "-ge", "-gt", "-le", "-lt", "-nt", "-ot",
      "-ef"].contains word then some .binary
  else
    match word with
    | "!" => some .negation
    | "-a" => some .conjunction
    | "-o" => some .disjunction
    | "(" => some .opening
    | ")" => some .closing
    | _ => none

def isOperand : List String → Bool
  | [] => true
  | [_] => false
  | w :: _ => role? w == some .binary

def roleAt (words : List String) : Option Role :=
  match words with
  | [] => none
  | w :: rest =>
    match role? w with
    | some .unary => if isOperand rest then none else some .unary
    | some .opening => if rest.isEmpty then none else some .opening
    | role => role

inductive Found
  | entry (e : Entry)
  | device
  | program

def found? (files : Files) (path : String) : Option Found :=
  match files.find? (spelled path) with
  | some e => some (.entry e)
  | none =>
    if (device? path).isSome then some .device
    else if isSystemProgram path then some .program
    else none

def ask (files : Files) (op arg : String) : Except String Bool :=
  let found := found? files arg
  let hasBits (bits : Nat) : Bool := match found with
    | some (.entry (.file _ mode)) => mode &&& bits != 0
    | _ => false
  match op with
  | "-n" => .ok !arg.isEmpty
  | "-z" => .ok arg.isEmpty
  | "-f" => .ok (match found with
    | some (.entry (.file _ _)) | some .program => true
    | _ => false)
  | "-d" => .ok (match found with
    | some (.entry .directory) => true
    | _ => false)
  | "-e" | "-r" | "-w" | "-O" | "-G" => .ok found.isSome
  | "-c" => .ok (match found with
    | some .device => true
    | _ => false)
  | "-x" => .ok (match found with
    | some (.entry .directory) | some .program => true
    | some (.entry e) => e.isRunnable
    | _ => false)
  | "-s" => .ok (match found with
    | some (.entry .directory) | some .program => true
    | some (.entry (.file content _)) => !content.isEmpty
    | _ => false)
  | "-h" | "-L" => .ok (match files.locateLink (spelled arg) with
    | .ok place => match files.entryAt? place with
      | some (.link _) => true
      | _ => false
    | .error _ => false)
  | "-u" => .ok (hasBits 0o4000)
  | "-g" => .ok (hasBits 0o2000)
  | "-k" => .ok (hasBits 0o1000)
  | "-t" =>
    match Arithmetic.integer? false arg with
    | some _ => .ok false
    | none => .error ("Illegal number: " ++ arg)
  | _ => .ok false

def compareIntegers (a b : String) (f : Int → Int → Bool) : Except String Bool :=
  match Arithmetic.integer? false a, Arithmetic.integer? false b with
  | some x, some y => .ok (f x y)
  | none, _ => .error ("Illegal number: " ++ a)
  | _, none => .error ("Illegal number: " ++ b)

def compare (files : Files) (a op b : String) : Except String Bool :=
  match op with
  | "=" => .ok (a == b)
  | "!=" => .ok (a != b)
  | "<" => .ok (a < b)
  | ">" => .ok (b < a)
  | "-eq" => compareIntegers a b (· == ·)
  | "-ne" => compareIntegers a b (· != ·)
  | "-lt" => compareIntegers a b (· < ·)
  | "-le" => compareIntegers a b (· ≤ ·)
  | "-gt" => compareIntegers a b (· > ·)
  | "-ge" => compareIntegers a b (· ≥ ·)
  | "-ef" =>
    match files.locate (spelled a), files.locate (spelled b) with
    | .ok x, .ok y => .ok (x == y && (files.entryAt? x).isSome)
    | _, _ => .ok false
  | _ => .ok false

mutual

/-- A condition at the front of some words. The words that are given back begin
with the last one that belongs to it. -/
def either (files : Files) : Nat → List String → Except String (Bool × List String)
  | 0, _ => .error "too many arguments"
  | fuel + 1, words => do
    let (a, rest) ← both files fuel words
    if roleAt (rest.drop 1) == some .disjunction then
      let (b, rest) ← either files fuel (rest.drop 2)
      return (a || b, rest)
    else return (a, rest)

def both (files : Files) : Nat → List String → Except String (Bool × List String)
  | 0, _ => .error "too many arguments"
  | fuel + 1, words => do
    let (a, rest) ← negatable files fuel words
    if roleAt (rest.drop 1) == some .conjunction then
      let (b, rest) ← both files fuel (rest.drop 2)
      return (a && b, rest)
    else return (a, rest)

def negatable (files : Files) : Nat → List String → Except String (Bool × List String)
  | 0, _ => .error "too many arguments"
  | fuel + 1, words => do
    if roleAt words == some .negation then
      let (a, rest) ← negatable files fuel (if (words.drop 1).isEmpty then [] else words.drop 1)
      return (!a, if rest.isEmpty then words else rest)
    else primary files fuel words

def primary (files : Files) : Nat → List String → Except String (Bool × List String)
  | 0, _ => .error "too many arguments"
  | fuel + 1, words => do
    match words, roleAt words with
    | [], _ => return (false, [])
    | _ :: rest, some .opening =>
      if roleAt rest == some .closing then return (false, rest)
      else
        let (a, last) ← either files fuel rest
        if (last.drop 1).head? == some ")" then return (a, last.drop 1)
        else throw "closing paren expected"
    | op :: rest, some .unary =>
      match rest with
      | [] => throw (op ++ ": argument expected")
      | arg :: _ => return (← ask files op arg, rest)
    | a :: rest, _ =>
      match rest, roleAt rest with
      | op :: more, some .binary =>
        match more with
        | [] => throw (op ++ ": argument expected")
        | b :: _ => return (← compare files a op b, more)
      | _, _ => return (!a.isEmpty, words)

end

def whole (files : Files) (words : List String) : Except String Bool := do
  let (a, rest) ← either files (4 * words.length + 8) words
  match rest with
  | w :: _ :: _ => throw (if w.isEmpty then "unexpected operator" else w ++ ": unexpected operator")
  | _ => return a

/-- The answer of a condition. Three words are a comparison first; three or four
are the condition in brackets, or the opposite of a shorter one. -/
def holds (files : Files) : List String → Except String Bool
  | [] => .ok false
  | w :: rest =>
    match rest with
    | [op, b] =>
      if role? op == some .binary then compare files w op b
      else if w == "(" && b == ")" then whole files [op]
      else if w == "!" then (holds files rest).map (!·)
      else whole files (w :: rest)
    | [_, _, c] =>
      if w == "(" && c == ")" then whole files rest.dropLast
      else if w == "!" then (holds files rest).map (!·)
      else whole files (w :: rest)
    | _ => whole files (w :: rest)

end Retrial.Shell.Condition
