import Retrial.Regex.Basic

/-!
# Written regular expressions

The tools of the child's side know regular expressions written in two ways. In the
basic one groups, counts and choices are marked by backslashes, in the extended
one by bare characters; a character without a meaning where it stands is taken for
itself. What was odd about an expression is noted in its order.
-/

set_option autoImplicit false

namespace Retrial.Regex

/-- How an expression is written, and whether a mark that stands where it has
nothing to act on is passed over instead of being refused. -/
structure Dialect where
  extended : Bool
  lenient : Bool
  deriving DecidableEq, Repr

inductive Fault
  | unmatchedBracket
  | unmatchedOpen
  | unmatchedClose
  | unmatchedBrace
  | invalidCount
  | invalidRange
  | invalidBefore
  | invalidClass
  | invalidBack
  | trailingBackslash
  | tooBig
  | classOutside
  | invalid
  deriving DecidableEq, Repr

def Fault.message : Fault → String
  | .unmatchedBracket => "Unmatched [, [^, [:, [., or [="
  | .unmatchedOpen => "Unmatched ( or \\("
  | .unmatchedClose => "Unmatched ) or \\)"
  | .unmatchedBrace => "Unmatched \\\x7b"
  | .invalidCount => "Invalid content of \\\x7b\\\x7d"
  | .invalidRange => "Invalid range end"
  | .invalidBefore => "Invalid preceding regular expression"
  | .invalidClass => "Invalid character class name"
  | .invalidBack => "Invalid back reference"
  | .trailingBackslash => "Trailing backslash"
  | .tooBig => "Regular expression too big"
  | .classOutside => "character class syntax is [[:space:]], not [:space:]"
  | .invalid => "Invalid regular expression"

structure Progress where
  opened : Nat
  closed : List Nat
  notes : List String

abbrev Reader := StateT Progress (Except Fault)

def charRange (c : Char) : List (Char × Char) := [(c, c)]

def literal (c : Char) : Regex := .one false (charRange c)

def anyOne : Regex := .one true []

def classRanges? (name : String) : Option (List (Char × Char)) :=
  match name with
  | "alpha" => some [('a', 'z'), ('A', 'Z')]
  | "digit" => some [('0', '9')]
  | "alnum" => some [('a', 'z'), ('A', 'Z'), ('0', '9')]
  | "upper" => some [('A', 'Z')]
  | "lower" => some [('a', 'z')]
  | "space" => some [(' ', ' '), ('\t', '\x0d')]
  | "blank" => some [(' ', ' '), ('\t', '\t')]
  | "punct" => some [('!', '/'), (':', '@'), ('[', '\x60'), ('\x7b', '~')]
  | "print" => some [(' ', '~')]
  | "graph" => some [('!', '~')]
  | "cntrl" => some [('\x00', '\x1f'), ('\x7f', '\x7f')]
  | "xdigit" => some [('0', '9'), ('a', 'f'), ('A', 'F')]
  | _ => none

def wordRanges : List (Char × Char) := [('a', 'z'), ('A', 'Z'), ('0', '9'), ('_', '_')]

def spaceRanges : List (Char × Char) := [(' ', ' '), ('\t', '\x0d')]

def untilMark (first second : Char) : List Char → Option (List Char × List Char)
  | a :: b :: rest =>
    if a == first && b == second then some ([], rest)
    else (untilMark first second (b :: rest)).map fun (cs, rest) => (a :: cs, rest)
  | _ => none

def takeEndpoint : List Char → Except Fault (Char × List Char)
  | '[' :: mark :: rest =>
    if mark == '.' || mark == '=' then
      match untilMark mark ']' rest with
      | some ([c], rest) => .ok (c, rest)
      | some _ => .error .invalidRange
      | none => .error .unmatchedBracket
    else .ok ('[', mark :: rest)
  | c :: rest => .ok (c, rest)
  | [] => .error .unmatchedBracket

def takeSet : Nat → Bool → List Char → Except Fault (List (Char × Char) × List Char)
  | 0, _, _ => .error .unmatchedBracket
  | _, _, [] => .error .unmatchedBracket
  | fuel + 1, first, c :: cs => do
    if c == ']' && !first then return ([], cs)
    else
      match c, cs with
      | '[', ':' :: rest =>
        match untilMark ':' ']' rest with
        | none => throw .unmatchedBracket
        | some (name, rest) =>
          match classRanges? (String.ofList name) with
          | none => throw .invalidClass
          | some ranges =>
            let (more, rest) ← takeSet fuel false rest
            return (ranges ++ more, rest)
      | c, cs =>
        let (low, rest) ← takeEndpoint (c :: cs)
        match rest with
        | '-' :: d :: more =>
          if d == ']' then
            let (others, rest) ← takeSet fuel false rest
            return ((low, low) :: others, rest)
          else
            let (high, rest) ← takeEndpoint (d :: more)
            if high < low then throw .invalidRange
            let (others, rest) ← takeSet fuel false rest
            return ((low, high) :: others, rest)
        | rest =>
          let (others, rest) ← takeSet fuel false rest
          return ((low, low) :: others, rest)

/-- Whether what stands between brackets looks like the name of a class without
brackets of its own: a colon at both ends and something between, but no range. -/
def isBareClass (inside : List Char) : Bool :=
  match inside with
  | ':' :: rest =>
    rest.getLast? == some ':' && rest.any (· != ':') && !rest.contains '-' && !rest.contains '['
  | _ => false

def takeBracket (cs : List Char) : Except Fault (Regex × List Char) := do
  let (negated, body) := match cs with
    | '^' :: rest => (true, rest)
    | rest => (false, rest)
  if body.isEmpty then throw .invalid
  let (ranges, rest) ← takeSet (body.length + 1) true body
  if isBareClass (body.take (body.length - rest.length - 1)) then throw .classOutside
  return (.one negated ranges, rest)

def greatestCount : Nat := 32767

def readCount? (cs : List Char) : Option (Nat × Option Nat) :=
  let number? (ds : List Char) : Option Nat := (String.ofList ds).toNat?
  let front := cs.takeWhile (· != ',')
  match cs.drop front.length with
  | [] => (number? front).map fun n => (n, some n)
  | _ :: last =>
    let low := if front.isEmpty then some 0 else number? front
    match low, last with
    | some n, [] => some (n, none)
    | some n, last => (number? last).map fun m => (n, some m)
    | none, _ => none

def escapeMeaning? (c : Char) : Option Regex :=
  match c with
  | 'w' => some (.one false wordRanges)
  | 'W' => some (.one true wordRanges)
  | 's' => some (.one false spaceRanges)
  | 'S' => some (.one true spaceRanges)
  | 'b' => some (.anchor .wordEdge)
  | 'B' => some (.anchor .wordInside)
  | '<' => some (.anchor .wordStart)
  | '>' => some (.anchor .wordEnd)
  | '\x60' => some (.anchor .textStart)
  | '\'' => some (.anchor .textEnd)
  | _ => none

def Dialect.mark? (d : Dialect) : List Char → Option (Char × List Char)
  | '\\' :: c :: rest => if !d.extended && "()\x7b\x7d|+?".toList.contains c then some (c, rest) else none
  | c :: rest =>
    if c == '*' || (d.extended && "()\x7b|+?".toList.contains c) then some (c, rest) else none
  | [] => none

def Dialect.isBranchEnd (d : Dialect) (cs : List Char) : Bool :=
  match cs, d.mark? cs with
  | [], _ => true
  | _, some (c, _) => c == '|' || c == ')'
  | _, none => false

def Dialect.takeCount (d : Dialect) (cs : List Char) :
    Except Fault (Option (Nat × Option Nat × List Char)) :=
  let body : Option (List Char × List Char) :=
    if d.extended then
      let inside := cs.takeWhile (· != '\x7d')
      if inside.length < cs.length then some (inside, cs.drop (inside.length + 1)) else none
    else untilMark '\\' '\x7d' cs
  let isPlain := d.extended && d.lenient
  match body with
  | none => if isPlain then .ok none else .error .unmatchedBrace
  | some (inside, rest) =>
    match readCount? inside with
    | none => if isPlain then .ok none else .error .invalidCount
    | some (low, high) =>
      let isTooBig (n : Nat) : Bool := greatestCount < n
      if isTooBig low || high.any isTooBig then .error .tooBig
      else if (high.getD low) < low then .error .invalidCount
      else .ok (some (low, high, rest))

def note (text : String) : Reader Unit := modify fun p => { p with notes := p.notes ++ [text] }

def repetitions (d : Dialect) : Nat → Regex → List Char → Reader (Regex × List Char)
  | 0, r, cs => return (r, cs)
  | fuel + 1, r, cs =>
    match d.mark? cs with
    | some ('*', rest) => repetitions d fuel (.repeated 0 none r) rest
    | some ('+', rest) => repetitions d fuel (.repeated 1 none r) rest
    | some ('?', rest) => repetitions d fuel (.repeated 0 (some 1) r) rest
    | some ('\x7b', rest) => do
      match ← d.takeCount rest with
      | some (low, high, rest) => repetitions d fuel (.repeated low high r) rest
      | none => return (r, cs)
    | _ => return (r, cs)

def escape (c : Char) : Reader Regex := do
  if c.isDigit && c != '0' then
    let number := c.toNat - '0'.toNat
    if (← get).closed.contains number then return .back number else throw .invalidBack
  else
    match escapeMeaning? c with
    | some r => return r
    | none => return literal c

mutual

def alternatives (d : Dialect) : Nat → Nat → List Char → Reader (Regex × List Char)
  | 0, _, cs => return (.nothing, cs)
  | fuel + 1, depth, cs => do
    let (r, rest) ← branch d fuel depth true .nothing cs
    match d.mark? rest with
    | some ('|', rest) =>
      let (more, rest) ← alternatives d fuel depth rest
      return (.either r more, rest)
    | _ => return (r, rest)

def branch (d : Dialect) : Nat → Nat → Bool → Regex → List Char → Reader (Regex × List Char)
  | 0, _, _, r, cs => return (r, cs)
  | fuel + 1, depth, start, r, cs => do
    let isEnd := match cs, d.mark? cs with
      | [], _ => true
      | _, some ('|', _) => true
      | _, some (')', _) => 0 < depth || !d.extended || !d.lenient
      | _, _ => false
    if isEnd then return (r, cs)
    else
      let join (next : Regex) : Regex := match r with
        | .nothing => next
        | r => .sequence r next
      let (next, rest, isAnchor) ← atom d fuel depth start cs
      if isAnchor && !d.extended then branch d fuel depth true (join next) rest
      else
        let (next, rest) ← repetitions d fuel next rest
        branch d fuel depth false (join next) rest

/-- Reads one expression, and says whether it is the anchor of a line's start.
What stands behind a mark that was passed over is taken as it is. -/
def atom (d : Dialect) : Nat → Nat → Bool → List Char → Reader (Regex × List Char × Bool)
  | 0, _, _, cs => return (.nothing, cs, false)
  | _, _, _, [] => return (.nothing, [], false)
  | fuel + 1, depth, start, c :: cs => do
    let skip (heading : String) (rest : List Char) : Reader (Regex × List Char × Bool) := do
      unless d.lenient do throw .invalidBefore
      note (heading ++ " at start of expression")
      match d.mark? rest with
      | some (')', rest) => return (literal ')', rest, false)
      | some ('|', _) => return (.nothing, rest, false)
      | _ => atom d fuel depth start rest
    match d.mark? (c :: cs) with
    | some ('(', rest) =>
      let number := (← get).opened + 1
      modify fun p => { p with opened := number }
      let (body, rest) ← alternatives d fuel (depth + 1) rest
      match d.mark? rest with
      | some (')', rest) =>
        modify fun p => { p with closed := number :: p.closed }
        return (.group number body, rest, false)
      | _ => throw .unmatchedOpen
    | some ('*', rest) => if d.extended then skip "*" rest else return (literal '*', rest, false)
    | some ('\x7b', rest) =>
      if d.extended then
        if !d.lenient then throw .invalidBefore
        match ← d.takeCount rest with
        | some (_, _, rest) => skip "\x7b...\x7d" rest
        | none => return (literal '\x7b', rest, false)
      else if d.lenient then return (literal '\x7b', rest, false)
      else throw .invalidBefore
    | some (mark, rest) =>
      if d.extended && mark != ')' then skip (String.singleton mark) rest
      else return (literal mark, rest, false)
    | none =>
      match c, cs with
      | '\\', [] => throw .trailingBackslash
      | '\\', e :: rest => return (← escape e, rest, false)
      | '[', cs =>
        let (r, rest) ← takeBracket cs
        return (r, rest, false)
      | '.', cs => return (anyOne, cs, false)
      | '^', cs =>
        if d.extended || start then return (.anchor .lineStart, cs, true)
        else return (literal '^', cs, false)
      | '$', cs =>
        if d.extended || d.isBranchEnd cs then return (.anchor .lineEnd, cs, false)
        else return (literal '$', cs, false)
      | c, cs => return (literal c, cs, false)

end

def read (d : Dialect) (cs : List Char) : Except Fault (Regex × Nat × List String) := do
  let fuel := 4 * cs.length + 8
  let ((r, rest), p) ← (alternatives d fuel 0 cs).run ⟨0, [], []⟩
  unless rest.isEmpty do throw .unmatchedClose
  return (r, p.opened, p.notes)

end Retrial.Regex
