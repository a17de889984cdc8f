import Retrial.Utility.Edit.Basic

/-!
# Running scripts of edits

On the child's side a script of edits is run once for each line. What it writes is gathered; texts
that are to follow a line wait until the line itself has been written.
-/

set_option autoImplicit false

namespace Retrial.Utility.Edit

structure Line where
  chars : List Char
  ended : Bool

structure InputLine where
  line : Line
  title : String

/-- What has been written to a file, the newest part first, and whether the end
of its last line is still missing. -/
structure Output where
  parts : List (List Char)
  owes : Bool

def Output.empty : Output := ⟨[], false⟩

def Output.settle (o : Output) (delimiter : Char) : Output :=
  if o.owes then ⟨[delimiter] :: o.parts, false⟩ else o

def Output.add (o : Output) (delimiter : Char) (cs : List Char) : Output :=
  if cs.isEmpty then o else ⟨cs :: (o.settle delimiter).parts, false⟩

def Output.addLine (o : Output) (delimiter : Char) (l : Line) : Output :=
  if l.ended then o.add delimiter (l.chars ++ [delimiter])
  else { o.add delimiter l.chars with owes := true }

def Output.text (o : Output) : List Char := o.parts.reverse.flatten

inductive Waiting
  | text (cs : List Char)
  | file (path : String)
  | line (path : String)

inductive RangeState
  | idle
  | untilLine (last : Nat)
  | untilSpot
  deriving DecidableEq

structure Editor where
  space : Line
  held : Line
  number : Nat
  title : String
  rest : List InputLine
  output : Output
  files : List (String × Output)
  /-- The texts of files that are read, as far as they have not been used up. -/
  texts : List (String × List Char)
  waiting : List Waiting
  replaced : Bool
  ranges : Array RangeState
  last : Option Pattern
  /-- Whether the last expression was asked for before there was one. -/
  lost : Bool

structure Manner where
  quiet : Bool
  /-- Whether what is written is put in place of the input. -/
  inPlace : Bool
  delimiter : Char
  width : Nat

/-- How a command ends: with the next one, at another place, at the end of the
script, at its start again without a new line, or for good. -/
inductive Flow
  | step
  | goTo (index : Nat)
  | cycle (prints : Bool)
  | restart
  | quit (status : Nat) (prints : Bool)

namespace Editor

def addTo (e : Editor) (m : Manner) (path : String) (write : Output → Output) : Editor :=
  if path == "/dev/stdout" && !m.inPlace then { e with output := write e.output }
  else
    { e with files :=
        if e.files.any (·.1 == path) then e.files.map fun f => if f.1 == path then (path, write f.2) else f
        else e.files ++ [(path, write .empty)] }

def say (e : Editor) (m : Manner) (cs : List Char) : Editor :=
  { e with output := e.output.add m.delimiter cs }

def sayLine (e : Editor) (m : Manner) (l : Line) : Editor :=
  { e with output := e.output.addLine m.delimiter l }

def meant (e : Editor) (p : Pattern) : Option (Regex × Pattern) × Editor :=
  match p.regex, e.last with
  | some r, _ => (some (r, p), { e with last := some p })
  | none, some q => (q.regex.map (·, q), e)
  | none, none => (none, { e with lost := true })

def subject (e : Editor) (p : Pattern) : Regex.Subject := ⟨e.space.chars.toArray, p.folds, p.byLines⟩

def isAt (e : Editor) : Spot → Bool × Editor
  | .line n => (e.number == n, e)
  | .every first step =>
    (if step == 0 then e.number == first else first ≤ e.number && (e.number - first) % step == 0, e)
  | .last => (e.rest.isEmpty, e)
  | .matching p =>
    match e.meant p with
    | (some (r, q), e) => ((r.search (e.subject q) 0).isSome, e)
    | (none, e) => (false, e)

def isInRange (e : Editor) (index : Nat) (start : Spot) (finish : Finish) : Bool × Editor :=
  let put (e : Editor) (r : RangeState) : Editor := { e with ranges := e.ranges.set! index r }
  match (e.ranges[index]?).getD .idle with
  | .untilLine last => (e.number ≤ last, if last ≤ e.number then put e .idle else e)
  | .untilSpot =>
    match finish with
    | .spot spot =>
      let (found, e) := e.isAt spot
      (true, if found then put e .idle else e)
    | _ => (true, e)
  | .idle =>
    let (found, e) := e.isAt start
    if !found then (false, e)
    else
      let toLine (last : Nat) : Bool × Editor := (true, if last ≤ e.number then e else put e (.untilLine last))
      match finish with
      | .after n => toLine (e.number + n)
      | .multiple n => toLine (if n == 0 then e.number else (e.number + n - 1) / n * n)
      | .spot (.line n) => toLine n
      | .spot _ => (true, put e .untilSpot)

def isChosen (e : Editor) (index : Nat) (c : Choice) : Bool × Editor :=
  let (found, e) := match c.start, c.finish with
    | none, _ => (true, e)
    | some start, none => e.isAt start
    | some start, some finish => e.isInRange index start finish
  (found != c.negated, e)

def takeLine (e : Editor) : Option (Line × Editor) :=
  match e.rest with
  | [] => none
  | l :: rest => some (l.line, { e with rest := rest, title := l.title, number := e.number + 1 })

def release (e : Editor) (m : Manner) : Editor :=
  let one (e : Editor) : Waiting → Editor
    | .text cs => { e with output := (e.output.settle m.delimiter).add m.delimiter cs }
    | .file path =>
      let text := (e.texts.lookup path).getD []
      { e with output := (e.output.settle m.delimiter).add m.delimiter text }
    | .line path =>
      let text := (e.texts.lookup path).getD []
      if text.isEmpty then e
      else
        let line := text.takeWhile (· != m.delimiter)
        let rest := text.drop (line.length + 1)
        let e := { e with texts := (path, rest) :: e.texts.filter (·.1 != path) }
        e.sayLine m ⟨line, line.length < text.length⟩
  { e.waiting.foldl one e with waiting := [] }

def finish (e : Editor) (m : Manner) (prints : Bool) : Editor :=
  (if prints && !m.quiet then e.sayLine m e.space else e).release m

end Editor

def cased (lasting once : Option Casing) (cs : List Char) : List Char :=
  let all := match lasting with
    | some .upper => cs.map Char.toUpper
    | some .lower => cs.map Char.toLower
    | _ => cs
  match once, all with
  | some .upperOne, c :: rest => c.toUpper :: rest
  | some .lowerOne, c :: rest => c.toLower :: rest
  | _, all => all

def filledPieces (group : Nat → List Char) : Option Casing → Option Casing → List Piece → List Char
  | _, _, [] => []
  | lasting, once, p :: rest =>
    let put (cs : List Char) : List Char :=
      cased lasting once cs ++ filledPieces group lasting (if cs.isEmpty then once else none) rest
    match p with
    | .text cs => put cs
    | .group n => put (group n)
    | .casing .stop => filledPieces group none none rest
    | .casing .upper => filledPieces group (some .upper) once rest
    | .casing .lower => filledPieces group (some .lower) once rest
    | .casing c => filledPieces group lasting (some c) rest

def replaceFrom (s : Substitution) (r : Regex) (subject : Regex.Subject) :
    Nat → Nat → Nat → Option Nat → List (List Char) → Nat × List (List Char)
  | 0, _, count, _, parts => (count, parts)
  | fuel + 1, start, count, previous, parts =>
    let size := subject.chars.size
    let tail (i : Nat) : List Char := (subject.chars.extract i size).toList
    match r.search subject start with
    | none => (count, tail start :: parts)
    | some f =>
      let front := (subject.chars.extract start f.start).toList
      let skipped := (subject.chars.extract f.stop (f.stop + 1)).toList
      if f.start == f.stop && previous == some f.start then
        -- An empty match does not follow another one at once.
        if size ≤ f.start then (count, front :: parts)
        else replaceFrom s r subject fuel (f.start + 1) count none (skipped :: front :: parts)
      else
        let count := count + 1
        let isReplaced := count == s.first || (s.all && s.first < count)
        let text := if isReplaced then filledPieces (f.text subject) none none s.pieces
          else f.text subject 0
        let parts := text :: front :: parts
        if isReplaced && !s.all then (count, tail f.stop :: parts)
        else if f.start == f.stop then
          if size ≤ f.stop then (count, parts)
          else replaceFrom s r subject fuel (f.stop + 1) count none (skipped :: parts)
        else replaceFrom s r subject fuel f.stop count (some f.stop) parts

def listed (width : Nat) (cs : List Char) : List Char :=
  let one (c : Char) : List Char :=
    let letters := [('\x07', 'a'), ('\x08', 'b'), ('\x0c', 'f'), ('\n', 'n'), ('\x0d', 'r'), ('\t', 't'),
      ('\x0b', 'v'), ('\\', '\\')]
    match letters.lookup c with
    | some letter => ['\\', letter]
    | none =>
      if ' ' ≤ c && c ≤ '~' then [c]
      else
        let ds := Nat.toDigits 8 c.toNat
        '\\' :: List.replicate (3 - ds.length) '0' ++ ds
  let (rows, row) := cs.foldl
    (fun (state : List (List Char) × List Char) c =>
      let (rows, row) := state
      let piece := one c
      if 1 < width && width - 1 < row.length + piece.length then ((row ++ ['\\', '\n']) :: rows, piece)
      else (rows, row ++ piece)) ([], [])
  rows.reverse.flatten ++ row ++ ['$', '\n']

namespace Editor

def act (e : Editor) (m : Manner) (index : Nat) (choice : Choice) (a : Action) : Flow × Editor :=
  let stay (e : Editor) : Flow × Editor := (.step, e)
  let withSpace (l : Line) : Flow × Editor := (.step, { e with space := l })
  let firstLine : List Char := e.space.chars.takeWhile (· != '\n')
  let hasLines := e.space.chars.contains '\n'
  let jumpTo (goal : Option Nat) : Flow := match goal with
    | some i => .goTo i
    | none => .cycle true
  match a with
  | .openBlock _ | .closeBlock | .label | .comment => stay e
  | .append text => stay { e with waiting := e.waiting ++ [.text text] }
  | .insert text => stay (e.say m text)
  | .change text =>
    let isOver := choice.finish.isNone || choice.negated || (e.ranges[index]?).getD .idle == .idle
    (.cycle false, if isOver then e.say m text else e)
  | .delete => (.cycle false, e)
  | .deleteLine =>
    if hasLines then
      (.restart, { e with space := { e.space with chars := e.space.chars.drop (firstLine.length + 1) } })
    else (.cycle false, e)
  | .next =>
    match e.rest with
    | [] => (.quit 0 true, e)
    | _ =>
      let e := e.finish m true
      match e.takeLine with
      | some (l, e) => stay { e with space := l }
      | none => stay e
  | .nextAppend =>
    match e.rest with
    | [] => (.quit 0 true, e)
    | _ =>
      let e := e.release m
      match e.takeLine with
      | some (l, e) => stay { e with space := ⟨e.space.chars ++ m.delimiter :: l.chars, l.ended⟩ }
      | none => stay e
  | .print => stay (e.sayLine m e.space)
  | .printLine => stay (e.sayLine m ⟨firstLine, true⟩)
  | .hold => stay { e with held := e.space }
  | .holdAppend => stay { e with held := ⟨e.held.chars ++ m.delimiter :: e.space.chars, e.space.ended⟩ }
  | .fetch => withSpace e.held
  | .fetchAppend => withSpace ⟨e.space.chars ++ m.delimiter :: e.held.chars, e.held.ended⟩
  | .exchange => stay { e with space := e.held, held := e.space }
  | .number => stay (e.say m ((toString e.number).toList ++ ['\n']))
  | .title => stay (e.say m (e.title.toList ++ ['\n']))
  | .list width => stay (e.say m (listed (width.getD m.width) e.space.chars))
  | .quit status prints => (.quit status prints, e)
  | .readFile path => stay { e with waiting := e.waiting ++ [.file path] }
  | .readLine path => stay { e with waiting := e.waiting ++ [.line path] }
  | .writeSpace path => stay (e.addTo m path fun o => o.addLine m.delimiter e.space)
  | .writeLine path => stay (e.addTo m path fun o => o.addLine m.delimiter ⟨firstLine, true⟩)
  | .clear => withSpace { e.space with chars := [] }
  | .replaceChars pairs =>
    withSpace { e.space with chars := e.space.chars.map fun c => (pairs.lookup c).getD c }
  | .jump goal => (jumpTo goal, e)
  | .jumpIf goal => if e.replaced then (jumpTo goal, { e with replaced := false }) else stay e
  | .jumpUnless goal => if e.replaced then stay { e with replaced := false } else (jumpTo goal, e)
  | .substitute s =>
    match e.meant s.pattern with
    | (none, e) => stay e
    | (some (r, q), e) =>
      let subject := e.subject q
      let (count, parts) := replaceFrom s r subject (subject.chars.size + 2) 0 0 none []
      if count < s.first then stay e
      else
        let e := { e with space := { e.space with chars := parts.reverse.flatten }, replaced := true }
        let e := if s.prints then e.sayLine m e.space else e
        stay (match s.target with
          | some path => e.addTo m path fun o => o.addLine m.delimiter e.space
          | none => e)

def run (m : Manner) (script : Script) : Nat → Nat → Editor → Option (Nat × Editor)
  | 0, _, _ => none
  | fuel + 1, index, e =>
    let cycle (e : Editor) : Option (Nat × Editor) :=
      match e.takeLine with
      | some (l, e) => run m script fuel 0 { e with space := l, replaced := false }
      | none => some (0, e)
    match script[index]? with
    | none => cycle (e.finish m true)
    | some step =>
      let (chosen, e) := e.isChosen index step.choice
      if e.lost then some (1, { e with rest := [] })
      else if !chosen then
        let next := match step.action with
          | .openBlock stop => stop + 1
          | _ => index + 1
        run m script fuel next e
      else
        let (flow, e) := e.act m index step.choice step.action
        if e.lost then some (1, { e with rest := [] })
        else match flow with
        | .step => run m script fuel (index + 1) e
        | .goTo i => run m script fuel i e
        | .cycle prints => cycle (e.finish m prints)
        | .restart => run m script fuel 0 (e.finish m false)
        | .quit status prints =>
          some (status, { e.finish m prints with rest := [] })

def start (script : Script) (held : Line) (lines : List InputLine) (texts : List (String × List Char))
    (files : List (String × Output)) : Editor where
  space := ⟨[], true⟩
  held := held
  number := 0
  title := "-"
  rest := lines
  output := .empty
  files := files
  texts := texts
  waiting := []
  replaced := false
  ranges := script.map fun s => match s.choice.start, s.choice.finish with
    | some (.line 0), some _ => .untilSpot
    | _, _ => .idle
  last := none
  lost := false

def longestRun : Nat := 2000000

def edit (m : Manner) (script : Script) (e : Editor) : Option (Nat × Editor) :=
  match e.takeLine with
  | some (l, e) => run m script longestRun 0 { e with space := l }
  | none => some (0, e)

end Editor

end Retrial.Utility.Edit
