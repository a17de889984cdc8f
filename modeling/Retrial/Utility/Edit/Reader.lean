import Retrial.Regex.Reader
import Retrial.Utility.Edit.Basic

/-!
# Written scripts of edits

How scripts of edits are written on the child's side. A fault names the place up to which a script
was read when it was found.
-/

set_option autoImplicit false

namespace Retrial.Utility.Edit

/-- A fault, with what is still unread of the text. One of the whole script
stands at no place. -/
structure Fault where
  unread : Option Nat
  message : String

inductive Draft
  | done (a : Action)
  | jump (kind : Char) (label : String)
  | named (label : String)

structure Progress where
  steps : Array (Choice × Draft)
  blocks : List Nat

abbrev Result := Except Fault

def failAt {α : Type} (rest : List Char) (message : String) : Result α := .error ⟨some rest.length, message⟩

def isBlank (c : Char) : Bool := c == ' ' || c == '\t'

def isSpace (c : Char) : Bool := c == ' ' || ('\t' ≤ c && c ≤ '\x0d')

def bracketLength (cs : List Char) : Option Nat :=
  let front := match cs with
    | '^' :: ']' :: _ => 2
    | '^' :: _ | ']' :: _ => 1
    | _ => 0
  let rec go : Nat → List Char → Nat → Option Nat
    | 0, _, _ => none
    | _, [], _ => none
    | fuel + 1, '[' :: mark :: rest, n =>
      if mark == ':' || mark == '.' || mark == '=' then
        match Regex.untilMark mark ']' rest with
        | some (inside, rest) => go fuel rest (n + inside.length + 4)
        | none => none
      else go fuel (mark :: rest) (n + 1)
    | fuel + 1, c :: rest, n =>
      if c == '\n' then none else if c == ']' then some (n + 1) else go fuel rest (n + 1)
  go (cs.length + 1) (cs.drop front) front

/-- Takes a text up to a delimiter. A backslash before the delimiter goes away,
and one before a letter n makes a line end of it in an expression. -/
def untilDelimiter (delimiter : Char) (expression : Bool) :
    Nat → List Char → List Char → Except (List Char) (List Char × List Char)
  | 0, _, rest => .error rest
  | _, _, [] => .error []
  | fuel + 1, taken, c :: rest =>
    if c == delimiter then .ok (taken.reverse, rest)
    else if c == '\n' && expression then .error rest
    else if c == '\\' then
      match rest with
      | [] => .error []
      | d :: rest =>
        if d == delimiter then
          let kept := if !expression && d == '&' then [d, '\\'] else [d]
          untilDelimiter delimiter expression fuel (kept ++ taken) rest
        else if d == 'n' && expression then untilDelimiter delimiter expression fuel ('\n' :: taken) rest
        else if d == '\n' && expression then untilDelimiter delimiter expression fuel ('\n' :: taken) rest
        else untilDelimiter delimiter expression fuel (d :: '\\' :: taken) rest
    else if c == '[' && expression then
      match bracketLength rest with
      | some n =>
        let inside := rest.take n
        let plain := String.ofList inside |>.replace "\\n" "\n"
        untilDelimiter delimiter expression fuel (plain.toList.reverse ++ c :: taken) (rest.drop n)
      | none => .error []
    else untilDelimiter delimiter expression fuel (c :: taken) rest

def delimited (delimiter : Char) (expression : Bool) (cs : List Char) :
    Except (List Char) (List Char × List Char) :=
  untilDelimiter delimiter expression (cs.length + 1) [] cs

def withEscapes (special : List Char) : Nat → List Char → List Char
  | 0, cs => cs
  | _, [] => []
  | fuel + 1, '\\' :: c :: rest =>
    let put (d : Char) (rest : List Char) : List Char :=
      (if special.contains d then ['\\', d] else [d]) ++ withEscapes special fuel rest
    let number (radix width : Nat) (digits : List Char) : List Char :=
      let isDigit (c : Char) : Bool := ((c.isDigit || ('a' ≤ c.toLower && c.toLower ≤ 'f')) &&
        (if c.isDigit then c.toNat - 48 else c.toLower.toNat - 87) < radix)
      let ds := (digits.take width).takeWhile isDigit
      if ds.isEmpty then '\\' :: c :: withEscapes special fuel digits
      else
        let value := ds.foldl (fun n d =>
          n * radix + (if d.isDigit then d.toNat - 48 else d.toLower.toNat - 87)) 0
        put (Char.ofNat (value % 256)) (digits.drop ds.length)
    match c with
    | 'a' => put '\x07' rest
    | 'f' => put '\x0c' rest
    | 'r' => put '\x0d' rest
    | 't' => put '\t' rest
    | 'v' => put '\x0b' rest
    | 'd' => number 10 3 rest
    | 'o' => number 8 3 rest
    | 'x' => number 16 2 rest
    | 'c' =>
      match rest with
      | d :: rest => put (Char.ofNat (d.toUpper.toNat ^^^ 64)) rest
      | [] => ['\\', 'c']
    | c => '\\' :: c :: withEscapes special fuel rest
  | fuel + 1, c :: rest => c :: withEscapes special fuel rest

def readPattern (extended : Bool) (cs : List Char) (folds byLines : Bool) (rest : List Char) :
    Result (Pattern × Nat) :=
  if cs.isEmpty then .ok (⟨none, false, false⟩, 9)
  else
    let special := "$*.[\\]^".toList ++ if extended then "+?()|\x7b\x7d".toList else []
    match Regex.read ⟨extended, false⟩ (withEscapes special (cs.length + 1) cs) with
    | .ok (r, groups, _) => .ok (⟨some r, folds, byLines⟩, groups)
    | .error .classOutside => .error ⟨none, Regex.Fault.classOutside.message⟩
    | .error fault => failAt rest fault.message

def takeDigits (cs : List Char) : Option (Nat × List Char) :=
  let ds := cs.takeWhile Char.isDigit
  (String.ofList ds).toNat?.map (·, cs.drop ds.length)

def takeAddressFlags : List Char → Bool → Bool → Bool × Bool × List Char
  | 'I' :: rest, _, lines => takeAddressFlags rest true lines
  | 'M' :: rest, folds, _ => takeAddressFlags rest folds true
  | rest, folds, lines => (folds, lines, rest)

def readSpot (extended : Bool) (cs : List Char) : Result (Option Spot × List Char) :=
  let expression (delimiter : Char) (body : List Char) : Result (Option Spot × List Char) :=
    match delimited delimiter true body with
    | .error rest => failAt rest "unterminated address regex"
    | .ok (text, rest) => do
      let (folds, lines, rest) := takeAddressFlags rest false false
      let (p, _) ← readPattern extended text folds lines rest
      return (some (.matching p), rest)
  match cs with
  | '/' :: body => expression '/' body
  | '\\' :: delimiter :: body => expression delimiter body
  | '$' :: rest => .ok (some .last, rest)
  | cs =>
    match takeDigits cs with
    | none => .ok (none, cs)
    | some (n, rest) =>
      match rest.dropWhile isBlank with
      | '~' :: more =>
        match takeDigits (more.dropWhile isBlank) with
        | some (step, rest) => .ok (some (.every n step), rest)
        | none => .ok (some (.every n 0), more)
      | _ => .ok (some (.line n), rest)

def readFinish (extended : Bool) (cs : List Char) : Result (Option Finish × List Char) :=
  match cs with
  | '+' :: rest =>
    let (n, rest) := (takeDigits rest).getD (0, rest)
    .ok (some (.after n), rest)
  | '~' :: rest =>
    let (n, rest) := (takeDigits rest).getD (0, rest)
    .ok (some (.multiple n), rest)
  | cs => do
    let (spot, rest) ← readSpot extended cs
    return (spot.map .spot, rest)

def readChoice (extended : Bool) (cs : List Char) : Result (Choice × List Char) := do
  match cs with
  | '+' :: rest | '~' :: rest =>
    match takeDigits rest with
    | some (_, rest) => failAt rest "invalid usage of +N or ~N as first address"
    | none => pure ()
  | _ => pure ()
  let (start, rest) ← readSpot extended cs
  let (finish, rest) ← match start, rest.dropWhile isSpace with
    | some _, ',' :: more => do
      let more := more.dropWhile isSpace
      let (finish, rest) ← readFinish extended more
      if finish.isNone then failAt more "unexpected \x60,'"
      else pure (finish, rest)
    | _, _ => pure (none, rest)
  let isZero := match start with
    | some (.line 0) => true
    | _ => false
  let mayBeZero := match finish with
    | some (.spot (.matching _)) => true
    | _ => false
  if isZero && !mayBeZero then failAt (rest.dropWhile isSpace |>.drop 1) "invalid usage of line address 0"
  let rest := rest.dropWhile isSpace
  match rest with
  | '!' :: more =>
    let more := more.dropWhile isSpace
    if more.head? == some '!' then failAt (more.drop 1) "multiple \x60!'s"
    return (⟨start, finish, true⟩, more)
  | rest => return (⟨start, finish, false⟩, rest)

def endCommand (cs : List Char) : Result (List Char) :=
  match cs.dropWhile fun c => isSpace c && c != '\n' with
  | [] => .ok []
  | '\n' :: rest | ';' :: rest => .ok rest
  | '\x7d' :: rest => .ok ('\x7d' :: rest)
  | '#' :: rest => .ok ('#' :: rest)
  | _ :: rest => failAt rest "extra characters after command"

def takeName (cs : List Char) : Result (String × List Char) :=
  let cs := cs.dropWhile isBlank
  let name := cs.takeWhile (· != '\n')
  if name.isEmpty then failAt cs "missing filename in r/R/w/W commands"
  else .ok (String.ofList name, cs.drop (name.length + 1))

def takeLabel (cs : List Char) : String × List Char :=
  let cs := cs.dropWhile isBlank
  let label := cs.takeWhile fun c => !isSpace c && c != ';'
  (String.ofList label, cs.drop label.length)

def takeText : Nat → List Char → List Char × List Char
  | 0, cs => ([], cs)
  | _, [] => (['\n'], [])
  | _, ['\\'] => (['\n'], [])
  | _, '\n' :: rest => (['\n'], rest)
  | fuel + 1, '\\' :: c :: rest =>
    let (text, rest) := takeText fuel rest
    ((if c == 'n' then '\n' else c) :: text, rest)
  | fuel + 1, c :: rest =>
    let (text, rest) := takeText fuel rest
    (c :: text, rest)

def readText (cs : List Char) : Result (List Char × List Char) :=
  let read (cs : List Char) : List Char × List Char :=
    let line := withEscapes ['\\'] (cs.length + 1) cs
    takeText (line.length + 1) line
  match cs.dropWhile fun c => isSpace c && c != '\n' with
  | [] => failAt [] "expected \\ after \x60a', \x60c' or \x60i'"
  | '\\' :: rest =>
    match rest.dropWhile isBlank with
    | '\n' :: text => .ok (read text)
    | [] => .ok ([], [])
    | _ => .ok (let (text, rest) := takeText (rest.length + 1) rest; (text, rest))
  | '\n' :: rest => failAt rest "expected \\ after \x60a', \x60c' or \x60i'"
  | text => .ok (read text)

def readPieces : Nat → List Char → List Char → List Piece
  | 0, _, _ => []
  | _, taken, [] => if taken.isEmpty then [] else [.text taken.reverse]
  | fuel + 1, taken, cs =>
    let flush (p : Piece) (rest : List Char) : List Piece :=
      (if taken.isEmpty then [] else [.text taken.reverse]) ++ p :: readPieces fuel [] rest
    match cs with
    | '&' :: rest => flush (.group 0) rest
    | '\\' :: c :: rest =>
      if c.isDigit then flush (.group (c.toNat - '0'.toNat)) rest
      else
        match c with
        | 'U' => flush (.casing .upper) rest
        | 'L' => flush (.casing .lower) rest
        | 'u' => flush (.casing .upperOne) rest
        | 'l' => flush (.casing .lowerOne) rest
        | 'E' => flush (.casing .stop) rest
        | 'n' => readPieces fuel ('\n' :: taken) rest
        | c => readPieces fuel (c :: taken) rest
    | c :: rest => readPieces fuel (c :: taken) rest
    | [] => []

structure Flags where
  all : Bool
  prints : Bool
  number : Option Nat
  folds : Bool
  byLines : Bool
  target : Option String

def readFlags : Nat → Flags → List Char → Result (Flags × List Char)
  | 0, f, cs => .ok (f, cs)
  | _, f, [] => .ok (f, [])
  | fuel + 1, f, c :: rest =>
    match c with
    | 'g' =>
      if f.all then failAt rest "multiple \x60g' options to \x60s' command"
      else readFlags fuel { f with all := true } rest
    | 'p' =>
      if f.prints then failAt rest "multiple \x60p' options to \x60s' command"
      else readFlags fuel { f with prints := true } rest
    | 'i' | 'I' => readFlags fuel { f with folds := true } rest
    | 'm' | 'M' => readFlags fuel { f with byLines := true } rest
    | 'e' => readFlags fuel f rest
    | 'w' => do
      let (name, rest) ← takeName rest
      return ({ f with target := some name }, rest)
    | '\n' | ';' => .ok (f, rest)
    | '\x7d' | '#' => .ok (f, c :: rest)
    | c =>
      if isSpace c then readFlags fuel f rest
      else if c.isDigit then
        match takeDigits (c :: rest) with
        | some (0, rest) => failAt rest "number option to \x60s' command may not be zero"
        | some (n, rest) =>
          if f.number.isSome then failAt rest "multiple number options to \x60s' command"
          else readFlags fuel { f with number := some n } rest
        | none => failAt rest "unknown option to \x60s'"
      else failAt rest "unknown option to \x60s'"

def readSubstitution (extended : Bool) (cs : List Char) : Result (Action × List Char) := do
  let unterminated {α : Type} (rest : List Char) : Result α := failAt rest "unterminated \x60s' command"
  match cs with
  | [] => unterminated []
  | delimiter :: body =>
    match delimited delimiter true body with
    | .error rest => unterminated rest
    | .ok (text, rest) =>
      match delimited delimiter false rest with
      | .error rest => unterminated rest
      | .ok (replacement, rest) =>
        let (f, rest) ← readFlags (rest.length + 1) ⟨false, false, none, false, false, none⟩ rest
        let (p, groups) ← readPattern extended text f.folds f.byLines rest
        let replacement := withEscapes ['\\', '&'] (replacement.length + 1) replacement
        let pieces := readPieces (replacement.length + 1) [] replacement
        let beyond := pieces.findSome? fun
          | .group n => if groups < n then some n else none
          | _ => none
        match beyond with
        | some n => failAt rest ("invalid reference \\" ++ toString n ++ " on \x60s' command's RHS")
        | none => return (.substitute ⟨p, pieces, f.number.getD 1, f.all, f.prints, f.target⟩, rest)

def plainChars : List Char → List Char
  | '\\' :: '\\' :: rest => '\\' :: plainChars rest
  | '\\' :: 'n' :: rest => '\n' :: plainChars rest
  | c :: rest => c :: plainChars rest
  | [] => []

def readReplaceChars (cs : List Char) : Result (Action × List Char) := do
  let unterminated {α : Type} (rest : List Char) : Result α := failAt rest "unterminated \x60y' command"
  match cs with
  | [] => unterminated []
  | delimiter :: body =>
    match delimited delimiter false body with
    | .error rest => unterminated rest
    | .ok (source, rest) =>
      match delimited delimiter false rest with
      | .error rest => unterminated rest
      | .ok (target, rest) =>
        let side (cs : List Char) : List Char := plainChars (withEscapes ['\\'] (cs.length + 1) cs)
        if (side source).length != (side target).length then
          failAt rest "strings for \x60y' command are different lengths"
        else return (.replaceChars ((side source).zip (side target)), ← endCommand rest)

def readAction (extended : Bool) (letter : Char) (cs : List Char) : Result (Draft × List Char) := do
  let plain (a : Action) : Result (Draft × List Char) := do return (.done a, ← endCommand cs)
  let number (make : Option Nat → Action) : Result (Draft × List Char) := do
    match takeDigits (cs.dropWhile isBlank) with
    | some (n, rest) => return (.done (make (some n)), ← endCommand rest)
    | none => return (.done (make none), ← endCommand cs)
  let named (make : String → Action) : Result (Draft × List Char) := do
    let (name, rest) ← takeName cs
    return (.done (make name), rest)
  let text (make : List Char → Action) : Result (Draft × List Char) := do
    let (text, rest) ← readText cs
    return (.done (make text), rest)
  match letter with
  | '=' => plain .number
  | 'd' => plain .delete
  | 'D' => plain .deleteLine
  | 'F' => plain .title
  | 'g' => plain .fetch
  | 'G' => plain .fetchAppend
  | 'h' => plain .hold
  | 'H' => plain .holdAppend
  | 'n' => plain .next
  | 'N' => plain .nextAppend
  | 'p' => plain .print
  | 'P' => plain .printLine
  | 'x' => plain .exchange
  | 'z' => plain .clear
  | 'l' => number .list
  | 'q' => number fun n => .quit (n.getD 0) true
  | 'Q' => number fun n => .quit (n.getD 0) false
  | 'a' => text .append
  | 'i' => text .insert
  | 'c' => text .change
  | 'r' => named .readFile
  | 'R' => named .readLine
  | 'w' => named .writeSpace
  | 'W' => named .writeLine
  | 's' =>
    let (a, rest) ← readSubstitution extended cs
    return (.done a, rest)
  | 'y' =>
    let (a, rest) ← readReplaceChars cs
    return (.done a, rest)
  | 'b' | 't' | 'T' =>
    let (label, rest) := takeLabel cs
    return (.jump letter label, ← endCommand rest)
  | 'v' =>
    let (_, rest) := takeLabel cs
    return (.done .comment, ← endCommand rest)
  | c => failAt cs ("unknown command: \x60" ++ String.singleton c ++ "'")

def readCommands (extended : Bool) : Nat → Progress → List Char → Result Progress
  | 0, p, _ => .ok p
  | fuel + 1, p, cs => do
    match cs.dropWhile fun c => isSpace c || c == ';' with
    | [] => return p
    | cs =>
      let (choice, rest) ← readChoice extended cs
      let add (d : Draft) : Progress := { p with steps := p.steps.push (choice, d) }
      let hasAddress := choice.start.isSome
      match rest with
      | [] => failAt [] "missing command"
      | '#' :: rest =>
        if hasAddress then failAt rest "comments don't accept any addresses"
        else readCommands extended fuel p (rest.dropWhile (· != '\n'))
      | ':' :: rest =>
        if hasAddress then failAt rest ": doesn't want any addresses"
        else
          let rest := rest.dropWhile isBlank
          let label := rest.takeWhile fun c => !isSpace c && c != ';'
          if label.isEmpty then failAt rest "\":\" lacks a label"
          else readCommands extended fuel (add (.named (String.ofList label))) (rest.drop label.length)
      | '\x7b' :: rest =>
        let q := add (.done (.openBlock 0))
        readCommands extended fuel { q with blocks := p.steps.size :: p.blocks } rest
      | '\x7d' :: rest =>
        match p.blocks with
        | [] => failAt rest "unexpected \x60\x7d'"
        | start :: outer =>
          if hasAddress then failAt rest "\x7d doesn't want any addresses"
          else
            let steps := (p.steps.modify start fun s => (s.1, .done (.openBlock p.steps.size))).push
              (choice, .done .closeBlock)
            readCommands extended fuel ⟨steps, outer⟩ (← endCommand rest)
      | letter :: rest =>
        let single := ['=', 'a', 'i', 'q', 'Q', 'r', 'R', 'F', 'z', 'v']
        if choice.finish.isSome && ['q', 'Q'].contains letter && single.contains letter then
          failAt rest "command only uses one address"
        let (draft, rest) ← readAction extended letter rest
        readCommands extended fuel (add draft) rest

def resolve (p : Progress) : Except String Script :=
  let place? (label : String) : Option Nat := p.steps.findIdx? fun s => match s.2 with
    | .named name => name == label
    | _ => false
  p.steps.mapM fun (choice, draft) =>
    match draft with
    | .done a => .ok ⟨choice, a⟩
    | .named _ => .ok ⟨choice, .label⟩
    | .jump kind label =>
      let make (goal : Option Nat) : Action := match kind with
        | 'b' => .jump goal
        | 't' => .jumpIf goal
        | _ => .jumpUnless goal
      if label.isEmpty then .ok ⟨choice, make none⟩
      else
        match place? label with
        | some i => .ok ⟨choice, make (some i)⟩
        | none => .error ("can't find label for jump to \x60" ++ label ++ "'")

end Retrial.Utility.Edit
