import Retrial.Regex.Reader
import Retrial.Shell.Pattern
import Retrial.Utility.Source

/-!
# Search

The lines of files that a child's script searches for: those that match one of
some patterns, or that match none. Matches may have to be whole words or whole
lines, and lines around them may be shown too.
-/

set_option autoImplicit false

namespace Retrial.Utility

open Retrial.Shell Retrial.Text

structure Wanted where
  patterns : List Regex
  folds : Bool
  words : Bool
  wholeLines : Bool
  inverted : Bool

namespace Wanted

def subject (w : Wanted) (line : List Char) : Regex.Subject := ⟨line.toArray, w.folds, false⟩

def stopAt? (w : Wanted) (s : Regex.Subject) (i : Nat) : Option Nat :=
  let allowed (j : Nat) : Bool :=
    (!w.wholeLines || (i == 0 && j == s.chars.size)) &&
      (!w.words || (!s.isWordBefore i && !s.isWordAt j))
  (w.patterns.flatMap fun r => (r.ends s r.looksBack i []).map (·.1)).foldl
    (fun best j => if allowed j && best.all (· < j) then some j else best) none

def find? (w : Wanted) (s : Regex.Subject) : Nat → Nat → Option (Nat × Nat)
  | 0, _ => none
  | n + 1, i =>
    match w.stopAt? s i with
    | some j => some (i, j)
    | none => w.find? s n (i + 1)

def selects (w : Wanted) (line : List Char) : Bool :=
  let s := w.subject line
  (w.find? s (if w.wholeLines then 1 else line.length + 1) 0).isSome != w.inverted

def matchesIn (w : Wanted) (s : Regex.Subject) : Nat → Nat → List (Nat × Nat)
  | 0, _ => []
  | n + 1, i =>
    match w.find? s (s.chars.size + 1 - i) i with
    | none => []
    | some (a, b) => if a == b then w.matchesIn s n (a + 1) else (a, b) :: w.matchesIn s n b

end Wanted

structure Showing where
  counts : Bool
  listsWith : Bool
  listsWithout : Bool
  quiet : Bool
  onlyMatches : Bool
  numbers : Bool
  offsets : Bool
  names : Bool
  most : Option Nat
  hasContext : Bool
  before : Nat
  after : Nat
  paints : Bool
  delimiter : Char

structure FoundLine where
  number : Nat
  offset : Nat
  selected : Bool
  chars : List Char

def markLines (w : Wanted) (most : Option Nat) (lines : List (List Char)) : List FoundLine × Nat :=
  let (found, _, count) := lines.foldl
    (fun (state : List FoundLine × Nat × Nat) line =>
      let (found, offset, count) := state
      let isOver := most.any (· ≤ count)
      let selected := !isOver && w.selects line
      (⟨found.length + 1, offset, selected, line⟩ :: found, offset + line.length + 1,
        if selected then count + 1 else count)) (([], 0, 0) : List FoundLine × Nat × Nat)
  (found.reverse, count)

def isNear (sh : Showing) (selected : List Nat) (n : Nat) : Bool :=
  selected.any fun m => if m < n then n ≤ m + sh.after else m ≤ n + sh.before

def lineHeading (sh : Showing) (title : String) (l : FoundLine) (mark : Char) (offset : Nat) : List Char :=
  (if sh.names then title.toList ++ [mark] else []) ++
    (if sh.numbers then (toString l.number).toList ++ [mark] else []) ++
    if sh.offsets then (toString offset).toList ++ [mark] else []

def shownLines (w : Wanted) (sh : Showing) (title : String) (lines : List FoundLine) : List Char :=
  let selected := (lines.filter (·.selected)).map (·.number)
  if sh.onlyMatches then
    if w.inverted then []
    else
      spaced (lines.filter (·.selected)) fun l =>
        let s := w.subject l.chars
        (w.matchesIn s (l.chars.length + 1) 0).flatMap fun (a, b) =>
          lineHeading sh title l ':' (l.offset + a) ++ painted (s.chars.extract a b).toList ++ [sh.delimiter]
  else
    let near := if sh.hasContext then lines.filter fun l => isNear sh selected l.number
      else lines.filter (·.selected)
    spaced near fun l =>
      lineHeading sh title l (if l.selected then ':' else '-') l.offset ++
        (if sh.paints && l.selected && !w.inverted then paintedLine l else l.chars) ++ [sh.delimiter]
where
  painted (cs : List Char) : List Char :=
    if sh.paints then "\x1b[01;31m\x1b[K".toList ++ cs ++ "\x1b[m\x1b[K".toList else cs
  paintedLine (l : FoundLine) : List Char :=
    let s := w.subject l.chars
    let (parts, last) := (w.matchesIn s (l.chars.length + 1) 0).foldl
      (fun (state : List Char × Nat) (a, b) =>
        (state.1 ++ (s.chars.extract state.2 a).toList ++ painted (s.chars.extract a b).toList, b)) ([], 0)
    parts ++ (s.chars.extract last s.chars.size).toList
  spaced (shown : List FoundLine) (text : FoundLine → List Char) : List Char :=
    let (parts, _) := shown.foldl
      (fun (state : List (List Char) × Option Nat) l =>
        let (parts, last) := state
        -- With lines around them, those that are apart are so by their numbers.
        let isApart := sh.hasContext &&
          last.any fun n => n + 1 + (if sh.onlyMatches then sh.before + sh.after else 0) < l.number
        ((if isApart then "--\n".toList ++ text l else text l) :: parts, some l.number)) ([], none)
    parts.reverse.flatten

def searchTable : OptionTable :=
  .ofText "EFGPe:f:ivwxyczoqshHnbaLlm:rRA:B:C:d:D:TUZ0123456789"
    [("extended-regexp", 'E'), ("fixed-strings", 'F'), ("basic-regexp", 'G'), ("perl-regexp", 'P'),
      ("regexp=", 'e'), ("file=", 'f'), ("ignore-case", 'i'), ("no-ignore-case", '!'), ("invert-match", 'v'),
      ("word-regexp", 'w'), ("line-regexp", 'x'), ("count", 'c'), ("null-data", 'z'), ("only-matching", 'o'),
      ("quiet", 'q'), ("silent", 'q'), ("no-messages", 's'), ("no-filename", 'h'), ("with-filename", 'H'),
      ("line-number", 'n'), ("byte-offset", 'b'), ("text", 'a'), ("files-without-match", 'L'),
      ("files-with-matches", 'l'), ("max-count=", 'm'), ("recursive", 'r'), ("dereference-recursive", 'R'),
      ("after-context=", 'A'), ("before-context=", 'B'), ("context=", 'C'), ("color[=]", '%'),
      ("colour[=]", '%'), ("include=", '+'), ("exclude=", '~'), ("null", 'Z'), ("line-buffered", 'u')] 2

def filesBelow (files : Files) (operand : String) : List String :=
  match files.locate (spelled operand) with
  | .ok place =>
    match files.entryAt? place with
    | some .directory =>
      let below := files.entries.filter fun (p, e) =>
        place.isPrefixOf p && match e with
          | .file _ _ => true
          | _ => false
      let names := below.map fun (p, _) => String.intercalate "/" (p.drop place.length)
      let front := if operand.endsWith "/" then operand else operand ++ "/"
      (names.mergeSort fun a b => a ≤ b).map fun n => front ++ octets n
    | _ => [operand]
  | .error _ => [operand]

def fitsName (patterns : List String) (path : String) : Bool :=
  patterns.any fun p => isMatch (bareGlyphs p.toList) (Path.programName path).toList

def fixedRegex (cs : List Char) : Regex :=
  cs.foldr (fun c r => .sequence (Regex.literal c) r) .nothing

def usageOfSearch (name : String) : String :=
  "Usage: " ++ name ++ " [OPTION]... PATTERNS [FILE]...\nTry '" ++ name ++
    " --help' for more information.\n"

def readPatterns (extended fixed : Bool) (texts : List (List Char)) :
    Except Regex.Fault (List Regex × List String) :=
  texts.foldlM
    (fun (state : List Regex × List String) text => do
      let (rs, notes) := state
      if fixed then return (rs ++ [fixedRegex text], notes)
      else
        let (r, _, more) ← Regex.read ⟨extended, true⟩ text
        return (rs ++ [r], notes ++ more)) ([], [])

def searchFile (name : String) (w : Wanted) (sh : Showing) (asText : Bool) (title : String)
    (cs : List Char) : Eval Bool := do
  let lines := splitEnds sh.delimiter cs
  let (found, count) := markLines w (if sh.quiet then some 1 else sh.most) lines
  let any := 0 < count
  if sh.quiet then return any
  else if sh.listsWith || sh.listsWithout then
    if any == sh.listsWith then say (title ++ "\n")
    return any == sh.listsWith
  else if sh.counts then
    say ((if sh.names then title ++ ":" else "") ++ toString count ++ "\n")
    return any
  else if !asText && sh.delimiter == '\n' && cs.contains '\x00' then
    if any && !(sh.onlyMatches && w.inverted) then say (name ++ ": " ++ title ++ ": binary file matches\n")
    return any
  else
    -- Nothing is shown behind the last line that may be selected but what surrounds it.
    let last := ((found.filter (·.selected)).getLast?.map (·.number)).getD 0
    let isCut := sh.most.any (· ≤ count)
    sayChars (shownLines w sh title (if isCut then found.filter (·.number ≤ last + sh.after) else found))
    return any

def searchLines (extended fixed : Bool) (name : String) (args : List String) : Eval Nat := do
  match searchTable.read (args.length + 1) args with
  | .error message =>
    tell name message
    complain (usageOfSearch name)
    return 2
  | .ok (o, operands) =>
    let listed := o.values 'e'
    let fromFiles ← (o.values 'f').mapM fun path => do return (path, ← textOf path)
    let hasPatterns := !listed.isEmpty || !fromFiles.isEmpty
    let (texts, operands) : Option (List (List Char)) × List String :=
      if hasPatterns then
        (some ((listed.flatMap fun p => splitAllLines p.toList) ++
          fromFiles.flatMap fun (_, text) => linesIn (text.toOption.getD [])), operands)
      else
        match operands with
        | p :: rest => (some (splitAllLines p.toList), rest)
        | [] => (none, [])
    let unreadable := fromFiles.findSome? fun (path, text) => match text with
      | .error fault => some (path ++ ": " ++ fault.reason)
      | .ok _ => none
    let style := o.last? ['E', 'F', 'G', 'P']
    let fixed := if style.isSome then style == some 'F' else fixed
    let extended := if style.isSome then style == some 'E' || style == some 'P' else extended
    let badNumber := ['A', 'B', 'C'].findSome? fun letter =>
      (o.value? letter).bind fun word => if word.toNat?.isNone then some word else none
    match texts, unreadable, badNumber with
    | none, _, _ =>
      complain (usageOfSearch name)
      return 2
    | _, some message, _ =>
      tell name message
      return 2
    | _, _, some word =>
      tell name (word ++ ": invalid context length argument")
      return 2
    | some texts, none, none =>
      if (o.value? 'm').any fun word => word.toInt?.isNone then
        tell name "invalid max count"
        return 2
      else
        match readPatterns extended fixed texts with
        | .error fault =>
          tell name fault.message
          return 2
        | .ok (patterns, notes) =>
          notes.forM fun n => tell name ("warning: " ++ n)
          search name o patterns operands
where
  splitAllLines (cs : List Char) : List (List Char) :=
    if cs.isEmpty then [[]] else if isEnded '\n' cs then linesIn cs ++ [[]] else linesIn cs
  search (name : String) (o : Chosen) (patterns : List Regex) (operands : List String) : Eval Nat := do
    let recursive := o.has 'r' || o.has 'R'
    let files := (← get).files
    let digits := (o.filter (·.1.isDigit)).map (·.1)
    let around := ((o.value? 'C').bind String.toNat?).or (String.ofList digits).toNat?
    let numberOf (letter : Char) : Nat := (((o.value? letter).bind String.toNat?).or around).getD 0
    let isNamed (path : String) : Bool :=
      (!o.has '+' || fitsName (o.values '+') path) && !fitsName (o.values '~') path
    let operands := if recursive then
        if operands.isEmpty then (filesBelow files ".").map fun p => (p.drop 2).toString
        else operands.flatMap (filesBelow files)
      else sources operands
    let operands := operands.filter isNamed
    let w : Wanted := ⟨patterns, o.has 'i' || o.has 'y', o.has 'w', o.has 'x', o.has 'v'⟩
    let names := match o.last? ['h', 'H'] with
      | some c => c == 'H'
      | none => 1 < operands.length || recursive
    let listing := o.last? ['l', 'L']
    let most := ((o.value? 'm').bind String.toInt?).bind fun n => if n < 0 then none else some n.toNat
    let sh : Showing :=
      { counts := o.has 'c'
        listsWith := listing == some 'l'
        listsWithout := listing == some 'L'
        quiet := o.has 'q'
        onlyMatches := o.has 'o'
        numbers := o.has 'n'
        offsets := o.has 'b'
        names := names
        most := most
        hasContext := o.has 'A' || o.has 'B' || around.isSome
        before := numberOf 'B'
        after := numberOf 'A'
        paints := (o.value? '%').any fun w => w == "always" || w == "yes" || w == "force"
        delimiter := if o.has 'z' then '\x00' else '\n' }
    let (any, trouble) ← operands.foldlM
      (fun (state : Bool × Bool) operand => do
        let (any, trouble) := state
        if any && sh.quiet then return state
        else
          match ← textOf operand with
          | .error fault =>
            unless o.has 's' do tell name (operand ++ ": " ++ fault.reason)
            return (any, true)
          | .ok cs =>
            let title := if operand == "-" then "(standard input)" else operand
            let found ← searchFile name w sh (o.has 'a') title cs
            return (any || found, trouble)) (false, false)
    return if trouble && !(any && sh.quiet) then 2 else if any then 0 else 1

end Retrial.Utility
