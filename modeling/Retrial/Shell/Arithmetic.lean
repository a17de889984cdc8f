import Retrial.Instances
import Retrial.Number.Numeral
import Retrial.Shell.Token

/-!
# Arithmetic of scripts

The expressions that the script of a child computes: integers of 64 bits,
variables, and the operators of the usual table, without those that change a
variable by one and without the comma. An expression is computed while it is read,
from the left; what a condition leaves out is read but not computed. The value of
a variable is read as an integer, and as zero when there is none.
-/

set_option autoImplicit false

namespace Retrial.Shell.Arithmetic

open Retrial.Number

inductive Fault
  | expectingEnd
  | expectingOperand
  | expectingClose
  | expectingColon
  | divisionByZero
  | illegalNumber (text : String)
  deriving DecidableEq, Repr

def Fault.message (expression : String) : Fault → String
  | .illegalNumber text => "Illegal number: " ++ text
  | fault =>
    let reason := match fault with
      | .expectingEnd => "expecting EOF"
      | .expectingOperand => "expecting primary"
      | .expectingClose => "expecting ')'"
      | .expectingColon => "expecting ':'"
      | _ => "division by zero"
    "arithmetic expression: " ++ reason ++ ": \"" ++ expression ++ "\""

inductive Token
  | number (n : Int)
  | name (text : String)
  | op (text : String)
  | bad
  deriving DecidableEq, Repr

def operators : List String :=
  ["<<=", ">>=", "<<", ">>", "<=", ">=", "==", "!=", "&&", "||", "+=", "-=", "*=", "/=", "%=", "&=",
    "|=", "^=", "+", "-", "*", "/", "%", "<", ">", "=", "!", "~", "&", "|", "^", "?", ":", "(", ")"]

def assigning : List String := ["=", "<<=", ">>=", "+=", "-=", "*=", "/=", "%=", "&=", "|=", "^="]

def maxInteger : Nat := 2 ^ 63 - 1

def isSpace (c : Char) : Bool := c == ' ' || ('\t' ≤ c && c ≤ '\r')

def takeDigits (radix : Nat) (cs : List Char) : Nat × List Char :=
  let digits := cs.takeWhile fun c => (digitIn? radix c).isSome
  (digits.foldl (fun n c => n * radix + (digitIn? radix c).getD 0) 0, cs.drop digits.length)

/-- A number without a sign at the front of a text. Where `prefixed` is true, a
zero in front makes it octal, and an x behind that hexadecimal. -/
def takeNatural? ( prefixed : Bool) (cs : List Char) : Option (Nat × List Char) :=
  match cs with
  | [] => none
  | c :: rest =>
    if !c.isDigit then none
    else if prefixed && c == '0' then
      match rest with
      | x :: d :: ds =>
        if (x == 'x' || x == 'X') && (digitIn? 16 d).isSome then some (takeDigits 16 (d :: ds))
        else some (takeDigits 8 cs)
      | _ => some (takeDigits 8 cs)
    else some (takeDigits 10 cs)

def integer? ( prefixed : Bool) (text : String) : Option Int :=
  let cs := text.toList.dropWhile isSpace
  let (negative, digits) := match cs with
    | '-' :: ds => (true, ds)
    | '+' :: ds => (false, ds)
    | ds => (false, ds)
  match takeNatural? prefixed digits with
  | some (n, rest) =>
    if rest.any (!isSpace ·) then none
    else if negative then (if n ≤ maxInteger + 1 then some (-(n : Int)) else none)
    else if n ≤ maxInteger then some n
    else none
  | none => if prefixed && cs.isEmpty then some 0 else none

def tokens : Nat → List Char → List Token
  | 0, _ => []
  | _, [] => []
  | fuel + 1, c :: cs =>
    if c == ' ' || c == '\t' || c == '\n' then tokens fuel cs
    else
      match takeNatural? true (c :: cs) with
      | some (n, rest) => .number (min n maxInteger : Nat) :: tokens fuel rest
      | none =>
        if isNameStart c then
          .name (String.ofList ((c :: cs).takeWhile isNameChar)) ::
            tokens fuel ((c :: cs).dropWhile isNameChar)
        else
          match operators.find? fun o => o.toList == (c :: cs).take o.length with
          | some o => .op o :: tokens fuel ((c :: cs).drop o.length)
          | none => [.bad]

structure Progress where
  rest : List Token
  assigned : List (String × Int)
  deriving DecidableEq, Repr

abbrev Computing := StateT Progress (Except Fault)

def ofBool (b : Bool) : Int := if b then 1 else 0

def level? (o : String) : Option Nat :=
  [("|", 3), ("^", 4), ("&", 5), ("==", 6), ("!=", 6), ("<", 7), ("<=", 7), (">", 7), (">=", 7),
    ("<<", 8), (">>", 8), ("+", 9), ("-", 9), ("*", 10), ("/", 10), ("%", 10)].lookup o

def wrap (n : Int) : Int := Int.bmod n (2 ^ 64)

def bits (n : Int) : Nat := (n % (2 ^ 64)).toNat

def combine (o : String) (a b : Int) : Except Fault Int :=
  match o with
  | "|" => .ok (wrap (bits a ||| bits b : Nat))
  | "^" => .ok (wrap (bits a ^^^ bits b : Nat))
  | "&" => .ok (wrap (bits a &&& bits b : Nat))
  | "==" => .ok (ofBool (a == b))
  | "!=" => .ok (ofBool (a != b))
  | "<" => .ok (ofBool (a < b))
  | "<=" => .ok (ofBool (a ≤ b))
  | ">" => .ok (ofBool (b < a))
  | ">=" => .ok (ofBool (b ≤ a))
  | "<<" => .ok (wrap (a * 2 ^ (bits b % 64)))
  | ">>" => .ok (a / 2 ^ (bits b % 64))
  | "+" => .ok (wrap (a + b))
  | "-" => .ok (wrap (a - b))
  | "*" => .ok (wrap (a * b))
  | "/" => if b == 0 then .error .divisionByZero else .ok (wrap (Int.tdiv a b))
  | "%" => if b == 0 then .error .divisionByZero else .ok (Int.tmod a b)
  | _ => .error .expectingEnd

def next? : Computing (Option Token) := return (← get).rest.head?

def drop : Computing Unit := modify fun p => { p with rest := p.rest.drop 1 }

def takeOp (text : String) : Computing Bool := do
  if (← next?) == some (.op text) then
    drop
    return true
  else return false

def valueOf (names : String → Option String) (name : String) : Computing Int := do
  match (← get).assigned.lookup name with
  | some n => return n
  | none =>
    let text := (names name).getD ""
    match integer? true text with
    | some n => return n
    | none => throw (.illegalNumber text)

mutual

def assignment (names : String → Option String) : Nat → Bool → Computing Int
  | 0, _ => throw .expectingOperand
  | fuel + 1, live => do
    match (← get).rest with
    | .name x :: .op o :: _ =>
      if assigning.contains o then
        drop
        drop
        let b ← assignment names fuel live
        if !live then return b
        else
          let value ← if o == "=" then pure b
            else do combine (o.dropEnd 1).toString (← valueOf names x) b
          modify fun p => { p with assigned := (x, value) :: p.assigned }
          return value
      else choice names fuel live
    | _ => choice names fuel live

def choice (names : String → Option String) : Nat → Bool → Computing Int
  | 0, _ => throw .expectingOperand
  | fuel + 1, live => do
    let a ← disjunction names fuel live
    if ← takeOp "?" then
      let b ← assignment names fuel (live && a != 0)
      unless ← takeOp ":" do throw .expectingColon
      let c ← choice names fuel (live && a == 0)
      return if a != 0 then b else c
    else return a

def disjunction (names : String → Option String) : Nat → Bool → Computing Int
  | 0, _ => throw .expectingOperand
  | fuel + 1, live => do
    let a ← conjunction names fuel live
    if ← takeOp "||" then
      let b ← disjunction names fuel (live && a == 0)
      return ofBool (a != 0 || b != 0)
    else return a

def conjunction (names : String → Option String) : Nat → Bool → Computing Int
  | 0, _ => throw .expectingOperand
  | fuel + 1, live => do
    let a ← operation names fuel 0 live
    if ← takeOp "&&" then
      let b ← conjunction names fuel (live && a != 0)
      return ofBool (a != 0 && b != 0)
    else return a

def operation (names : String → Option String) : Nat → Nat → Bool → Computing Int
  | 0, _, _ => throw .expectingOperand
  | fuel + 1, level, live => do
    let a ← operand names fuel live
    continued names fuel level live a

def continued (names : String → Option String) : Nat → Nat → Bool → Int → Computing Int
  | 0, _, _, _ => throw .expectingOperand
  | fuel + 1, level, live, a => do
    match ← next? with
    | some (.op o) =>
      match level? o with
      | some l =>
        if l < level then return a
        else
          drop
          let b ← operation names fuel (l + 1) live
          let value ← if live then liftM (combine o a b) else pure b
          continued names fuel level live value
      | none => return a
    | _ => return a

def operand (names : String → Option String) : Nat → Bool → Computing Int
  | 0, _ => throw .expectingOperand
  | fuel + 1, live => do
    match ← next? with
    | some (.number n) =>
      drop
      return n
    | some (.name x) =>
      drop
      if live then valueOf names x else return 0
    | some (.op "(") =>
      drop
      let a ← assignment names fuel live
      unless ← takeOp ")" do throw .expectingClose
      return a
    | some (.op "+") =>
      drop
      operand names fuel live
    | some (.op "-") =>
      drop
      return wrap (-(← operand names fuel live))
    | some (.op "!") =>
      drop
      return ofBool ((← operand names fuel live) == 0)
    | some (.op "~") =>
      drop
      return wrap (-(← operand names fuel live) - 1)
    | _ => throw .expectingOperand

end

def evaluate (names : String → Option String) (cs : List Char) :
    Except Fault (Int × List (String × Int)) := do
  let ts := tokens (cs.length + 1) cs
  let (n, p) ← (assignment names (16 * ts.length + 32) true).run ⟨ts, []⟩
  if p.rest.isEmpty then return (n, p.assigned.reverse) else throw .expectingEnd

end Retrial.Shell.Arithmetic
