import Retrial.Number.Layout
import Retrial.Shell.Arithmetic

/-!
# Printing from scripts

What the two printing commands of a child's script write: words with escapes, and
words laid out by a format. A format is used again until it has taken all
arguments; an argument that is missing counts as empty. What is wrong with an
argument is complained about, and the number at its front is taken.
-/

set_option autoImplicit false

namespace Retrial.Shell

open Retrial.Number (Layout)

structure Printed where
  chars : List Char
  ended : Bool
  deriving DecidableEq, Repr

def isOctal (c : Char) : Bool := '0' ≤ c && c ≤ '7'

def octalValue (cs : List Char) : Nat :=
  cs.foldl (fun n c => n * 8 + (c.toNat - '0'.toNat)) 0

def octalChar (cs : List Char) : Char := Char.ofNat (octalValue cs % 256)

def escapeChar? (c : Char) : Option Char :=
  ([('a', 7), ('b', 8), ('e', 27), ('f', 12), ('n', 10), ('r', 13), ('t', 9), ('v', 11),
    ('\\', 92)].lookup c).map Char.ofNat

def octals (width : Nat) (cs : List Char) : List Char := (cs.take width).takeWhile isOctal

def takeEscape (cs : List Char) : Char × List Char :=
  match cs with
  | [] => ('\\', [])
  | c :: rest =>
    match escapeChar? c with
    | some d => (d, rest)
    | none =>
      let ds := octals 3 cs
      if ds.isEmpty then ('\\', cs) else (octalChar ds, cs.drop ds.length)

/-- A word in which escapes stand for what they name. A zero may stand in front
of octal digits, and one escape ends everything. -/
def unescape : Nat → List Char → Printed
  | 0, _ => ⟨[], false⟩
  | _, [] => ⟨[], false⟩
  | _ + 1, '\\' :: 'c' :: _ => ⟨[], true⟩
  | fuel + 1, '\\' :: '0' :: cs =>
    let ds := octals 3 cs
    let p := unescape fuel (cs.drop ds.length)
    ⟨octalChar ds :: p.chars, p.ended⟩
  | fuel + 1, '\\' :: cs =>
    let (c, rest) := takeEscape cs
    let p := unescape fuel rest
    ⟨c :: p.chars, p.ended⟩
  | fuel + 1, c :: cs =>
    let p := unescape fuel cs
    ⟨c :: p.chars, p.ended⟩

def unescapeText (cs : List Char) : Printed := unescape (cs.length + 2) cs

def echoed (words : List String) : List Char :=
  let (newline, words) := match words with
    | "-n" :: rest => (false, rest)
    | ws => (true, ws)
  let p := unescapeText (String.intercalate " " words).toList
  if newline && !p.ended then p.chars ++ ['\n'] else p.chars

structure Formatting where
  written : List Char
  complaints : List String
  args : List String
  took : Bool
  ended : Bool
  /-- What makes the format itself senseless. -/
  refusal : Option String

namespace Formatting

def put (f : Formatting) (cs : List Char) : Formatting :=
  { f with written := cs.reverse ++ f.written }

def next (f : Formatting) : Option String × Formatting :=
  (f.args.head?, { f with args := f.args.drop 1, took := true })

def complain (f : Formatting) (message : String) : Formatting :=
  { f with complaints := f.complaints ++ [message] }

def judge (f : Formatting) (text : String) (rest : List Char) (outOfRange : Bool) : Formatting :=
  if rest.length == text.length && !text.isEmpty then f.complain (text ++ ": expected numeric value")
  else if !rest.isEmpty then f.complain (text ++ ": not completely converted")
  else if outOfRange then f.complain (text ++ ": Numerical result out of range")
  else f

def nextInteger (f : Formatting) (signed : Bool) : Int × Formatting :=
  match f.next with
  | (none, f) => (0, f)
  | (some text, f) =>
    match text.toList with
    | '\'' :: cs | '"' :: cs => ((cs.head?.map (·.toNat)).getD 0, f)
    | all =>
      let cs := all.dropWhile Arithmetic.isSpace
      let (negative, ds) := match cs with
        | '-' :: ds => (true, ds)
        | '+' :: ds => (false, ds)
        | ds => (false, ds)
      match Arithmetic.takeNatural? true ds with
      | none => (0, f.judge text all false)
      | some (n, rest) =>
        let bound : Nat := if signed then (if negative then 2 ^ 63 else 2 ^ 63 - 1) else 2 ^ 64 - 1
        let capped : Nat := min n bound
        let value : Int := if negative && (signed || n ≤ bound) then -(capped : Int) else capped
        (value, f.judge text rest (bound < n))

def takeLiteral (cs : List Char) : Option (Number.Literal × List Char) :=
  let lengths := (List.range (cs.length + 1)).reverse
  (lengths.findSome? fun n => (Number.readLiteral (cs.take n)).map (·, cs.drop n))

def nextFloating (f : Formatting) : Number.Literal × Formatting :=
  let zero : Number.Literal := .number false (.finite .zero)
  match f.next with
  | (none, f) => (zero, f)
  | (some text, f) =>
    match text.toList with
    | '\'' :: cs | '"' :: cs =>
      (.number false (.finite ⟨(cs.head?.map (·.toNat)).getD 0, 0⟩), f)
    | all =>
      match takeLiteral (all.dropWhile Arithmetic.isSpace) with
      | some (literal, rest) => (literal, f.judge text rest false)
      | none => (zero, f.judge text all false)

end Formatting

def takeLayout (cs : List Char) (f : Formatting) : Layout × List Char × Formatting :=
  let isFlag (c : Char) : Bool := "-0+ #".toList.contains c
  let number (cs : List Char) (f : Formatting) : Option Int × List Char × Formatting := match cs with
    | '*' :: rest =>
      let (n, f) := f.nextInteger true
      (some n, rest, f)
    | cs =>
      let ds := cs.takeWhile Char.isDigit
      ((String.ofList ds).toNat?.map Int.ofNat, cs.drop ds.length, f)
  let flags := cs.takeWhile isFlag
  let (width, cs, f) := number (cs.dropWhile isFlag) f
  let (places, cs, f) : Option Nat × List Char × Formatting := match cs with
    | '.' :: rest =>
      let (n, rest, f) := number rest f
      ((if n.getD 0 < 0 then none else some (n.getD 0).toNat), rest, f)
    | cs => (none, cs, f)
  let width := width.getD 0
  (⟨flags.contains '-' || width < 0, flags.contains '0', flags.contains '+', flags.contains ' ',
    flags.contains '#', width.natAbs, places⟩, cs, f)

def converted (l : Layout) (letter : Char) (directive : List Char) (f : Formatting) : Formatting :=
  match letter with
  | 's' =>
    let (text, f) := f.next
    f.put (l.text (text.getD "").toList)
  | 'b' =>
    let (text, f) := f.next
    let p := unescapeText (text.getD "").toList
    { f.put (l.text p.chars) with ended := p.ended }
  | 'c' =>
    let (text, f) := f.next
    f.put (l.filled [(text.bind (·.toList.head?)).getD '\x00'])
  | 'd' | 'i' =>
    let (n, f) := f.nextInteger true
    f.put (l.integer n)
  | 'u' => natural f 10
  | 'o' => natural f 8
  | 'x' | 'X' => natural f 16
  | 'f' | 'F' | 'e' | 'E' | 'g' | 'G' =>
    let (literal, f) := f.nextFloating
    match literal with
    | .number negative m => f.put (l.floating letter negative (.number m))
    | .notANumber => f.put (l.floating letter false .notANumber)
  | _ => { f with refusal := some (String.ofList directive ++ ": invalid directive") }
where
  natural (f : Formatting) (radix : Nat) : Formatting :=
    let (n, f) := f.nextInteger false
    f.put (l.natural radix (letter == 'X') (n % 2 ^ 64).toNat)

def formatOnce : Nat → List Char → Formatting → Formatting
  | 0, _, f => f
  | _, [], f => f
  | fuel + 1, '\\' :: cs, f =>
    let (c, rest) := takeEscape cs
    formatOnce fuel rest (f.put [c])
  | fuel + 1, '%' :: '%' :: cs, f => formatOnce fuel cs (f.put ['%'])
  | fuel + 1, '%' :: cs, f =>
    let (layout, rest, f) := takeLayout cs f
    match rest with
    | [] => { f with refusal := some "missing format character" }
    | letter :: rest =>
      let directive := '%' :: cs.take (cs.length - rest.length)
      let f := converted layout letter directive f
      if f.ended || f.refusal.isSome then f else formatOnce fuel rest f
  | fuel + 1, c :: cs, f => formatOnce fuel cs (f.put [c])

def formatAll (format : List Char) : Nat → Formatting → Formatting
  | 0, f => f
  | rounds + 1, f =>
    let f := formatOnce (format.length + 1) format { f with took := false }
    if f.ended || f.refusal.isSome || f.args.isEmpty || !f.took then f else formatAll format rounds f

def formatted (format : String) (args : List String) : Formatting :=
  formatAll format.toList (args.length + 1) ⟨[], [], args, false, false, none⟩

end Retrial.Shell
