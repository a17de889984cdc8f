import Retrial.Shell.Condition
import Retrial.Shell.Expansion
import Retrial.Shell.Print
import Retrial.Shell.Reader
import Retrial.Shell.Signal

/-!
# Commands of the language

The commands by which a child's script works on its own process and runs no
others: they read into variables, change variables, options and the working
directory, print, test, or leave what surrounds them. One that is used wrongly
explains why and fails.
-/

set_option autoImplicit false

namespace Retrial.Shell

open Retrial.Text

def letterOptions (takesArgument : Char → Option Bool) :
    List Char → Except Char (List (Char × String) × Option Char)
  | [] => .ok ([], none)
  | c :: cs =>
    match takesArgument c with
    | none => .error c
    | some false => (letterOptions takesArgument cs).map fun (found, waiting) => ((c, "") :: found, waiting)
    | some true => .ok (if cs.isEmpty then ([], some c) else ([(c, String.ofList cs)], none))

def builtinOptions (takesArgument : Char → Option Bool) :
    List String → Eval (List (Char × String) × List String)
  | [] => return ([], [])
  | w :: ws =>
    match w.toList with
    | '-' :: c :: cs =>
      if w == "--" then return ([], ws)
      else
        match letterOptions takesArgument (c :: cs) with
        | .error c => fail ("Illegal option -" ++ String.singleton c)
        | .ok (found, none) => do
          let (more, operands) ← builtinOptions takesArgument ws
          return (found ++ more, operands)
        | .ok (found, some c) =>
          match ws with
          | [] => fail ("No arg for -" ++ String.singleton c ++ " option")
          | a :: ws => do
            let (more, operands) ← builtinOptions takesArgument ws
            return (found ++ (c, a) :: more, operands)
    | _ => return ([], w :: ws)

def flagsAmong (letters : String) (c : Char) : Option Bool :=
  if letters.toList.contains c then some false else none

def operandsOf (args : List String) : Eval (List String) := do
  return (← builtinOptions (fun _ => none) args).2

def singleQuoted (text : String) : String :=
  let rec go : Nat → List Char → List Char
    | 0, _ => []
    | fuel + 1, cs =>
      let body := cs.takeWhile (· != '\'')
      let rest := cs.drop body.length
      let marks := rest.takeWhile (· == '\'')
      let after := rest.drop marks.length
      ('\'' :: body) ++ '\'' ::
        if marks.isEmpty then []
        else '"' :: marks ++ '"' :: (if after.isEmpty then [] else go fuel after)
  String.ofList (go (text.length + 1) text.toList)

def listVariables (heading : String) (chosen : Binding → Bool) : Eval Unit := do
  let names := (← get).names.filter fun p => chosen p.2
  (names.mergeSort fun a b => decide (a.1 ≤ b.1)).forM fun (name, b) =>
    say (heading ++ name ++
      (match b.value with
        | some value => "=" ++ singleQuoted value
        | none => "") ++ "\n")

/-- Takes bytes from the input up to the end of a line, without which the input
has ended. A backslash guards a byte, or joins a line with the next one. -/
def takeLine (raw : Bool) : Bytes → Nat → List (Char × Bool) → List (Char × Bool) × Nat × Bool
  | [], n, line => (line.reverse, n, false)
  | b :: bs, n, line =>
    if b == 10 then (line.reverse, n + 1, true)
    else if b == 0 then takeLine raw bs (n + 1) line
    else if b == 92 && !raw then
      match bs with
      | [] => (line.reverse, n + 1, false)
      | c :: cs =>
        takeLine raw cs (n + 2) (if c == 10 || c == 0 then line else (Char.ofNat c.toNat, true) :: line)
    else takeLine raw bs (n + 1) ((Char.ofNat b.toNat, false) :: line)

/-- The fields of a line for a number of variables; the last one takes the rest.
A guarded character separates nothing. -/
def readFields (separators : List Char) : Nat → List (Char × Bool) → List String
  | 0, _ => []
  | n + 1, cs =>
    let isSeparator (c : Char × Bool) : Bool := !c.2 && separators.contains c.1
    let isBlank (c : Char × Bool) : Bool := !c.2 && Splitting.isSeparatorBlank separators c.1
    let text (cs : List (Char × Bool)) : String := String.ofList (cs.map (·.1))
    let cs := cs.dropWhile isBlank
    let field := cs.takeWhile fun c => !isSeparator c
    let rest := (cs.drop field.length).dropWhile isBlank
    let rest := match rest with
      | c :: more => if isSeparator c then more.dropWhile isBlank else rest
      | [] => []
    if n == 0 then
      [if rest.isEmpty then text field else text ((cs.reverse.dropWhile isBlank).reverse)]
    else text field :: readFields separators n rest

def readVariables (args : List String) : Eval Nat := do
  let takes (c : Char) : Option Bool := if c == 'p' then some true else flagsAmong "r" c
  let (options, names) ← builtinOptions takes args
  if names.isEmpty then fail "arg count"
  else
    let bytes ← match ← unread 0 with
      | .ok bytes => pure bytes
      | .error _ => pure []
    let (line, count, ended) := takeLine (options.any (·.1 == 'r')) bytes 0 []
    advance 0 count
    let values := readFields (separators (← get)) names.length line
    (names.zip values).forM fun (name, value) =>
      if isName name.toList then assignVariable name value else fail (name ++ ": bad variable name")
    return if ended then 0 else 1

def namedOptions : List (String × Char) :=
  [("errexit", 'e'), ("noglob", 'f'), ("ignoreeof", 'I'), ("interactive", 'i'), ("monitor", 'm'),
    ("noexec", 'n'), ("stdin", 's'), ("xtrace", 'x'), ("verbose", 'v'), ("vi", 'V'), ("emacs", 'E'),
    ("noclobber", 'C'), ("allexport", 'a'), ("notify", 'b'), ("nounset", 'u'), ("privileged", 'p'), ("nolog", 'L'),
    ("debug", 'D')]

def turn (on : Bool) (letter : Char) : Eval Unit := do
  if on && letter == 'm' then explain "can't access tty; job control turned off"
  else
    modify fun s =>
      let others := s.options.filter (· != letter)
      { s with options := if on then letter :: others else others }

def turnLetter (on : Bool) (letter : Char) : Eval Unit :=
  if optionLetters.contains letter then turn on letter
  else fail ("Illegal option -" ++ String.singleton letter)

def turnNamed (on : Bool) (name : String) : Eval Unit :=
  match namedOptions.lookup name with
  | some letter => turn on letter
  | none => fail ("Illegal option -o " ++ name)

def listOptions (readable : Bool) : Eval Unit := do
  let s ← get
  if readable then say "Current option settings\n"
  namedOptions.forM fun (name, letter) =>
    let on := s.options.contains letter
    if readable then
      say (name ++ String.ofList (List.replicate (16 - name.length) ' ') ++ (if on then "on" else "off") ++ "\n")
    else say ("set " ++ (if on then "-" else "+") ++ "o " ++ name ++ "\n")

def setArguments (args : List String) : Eval Unit := modify fun s =>
  { s with arguments := args, nextOption := 1, letter := none }

def turnAll : List String → Eval (List String × Bool)
  | [] => return ([], false)
  | w :: args =>
    match w.toList with
    | ['-'] => do
      turn false 'x'
      turn false 'v'
      return (args, false)
    | ['-', '-'] => return (args, true)
    | sign :: letters =>
      if sign != '-' && sign != '+' then return (w :: args, false)
      else do
        let on := sign == '-'
        (letters.filter (· != 'o')).forM (turnLetter on)
        if letters.contains 'o' then
          match args with
          | [] =>
            listOptions on
            return ([], false)
          | name :: rest =>
            turnNamed on name
            turnAll rest
        else turnAll args
    | [] => return (w :: args, false)

def setOptions (args : List String) : Eval Nat := do
  if args.isEmpty then listVariables "" fun b => b.value.isSome
  else
    let (rest, marked) ← turnAll args
    if marked || !rest.isEmpty then setArguments rest
  return 0

def splitAssignment (w : String) : String × Option String :=
  match w.toList.dropWhile (· != '=') with
  | [] => (w, none)
  | _ :: value => (String.ofList (w.toList.takeWhile (· != '=')), some (String.ofList value))

def markNames (heading : String) (isMarked : Binding → Bool) (mark : Binding → Binding)
    (args : List String) : Eval Nat := do
  let (options, names) ← builtinOptions (flagsAmong "p") args
  if !options.isEmpty || names.isEmpty then listVariables (heading ++ " ") isMarked
  else
    names.forM fun w => do
      let (name, value) := splitAssignment w
      if !isName name.toList then fail (name ++ ": bad variable name")
      match value with
      | some value => assignVariable name value
      | none => pure ()
      modify fun s => s.bind name (mark ((s.binding? name).getD ⟨none, false, false⟩))
  return 0

def exportNames : List String → Eval Nat :=
  markNames "export" (·.exported) fun b => { b with exported := true }

def fixNames : List String → Eval Nat :=
  markNames "readonly" (·.fixed) fun b => { b with fixed := true }

def unsetNames (args : List String) : Eval Nat := do
  let (options, names) ← builtinOptions (flagsAmong "fv") args
  let ofFunctions := options.any (·.1 == 'f')
  names.forM fun name => do
    let s ← get
    if ofFunctions then set { s with functions := s.functions.filter fun p => p.1 != name }
    else if !isName name.toList then fail (name ++ ": bad variable name")
    else if ((s.binding? name).map (·.fixed)).getD false then fail (name ++ ": is read only")
    else set (s.unset name)
  return 0

/-- A directory as it is written, seen from another one. Exactly two slashes at the
front are kept. -/
def normalized (base path : String) : String :=
  let front := if Path.isAbsolute path then path else base
  let root := if front.startsWith "//" && !front.startsWith "///" then "//" else "/"
  let names := (if Path.isAbsolute path then [] else Path.segments base) ++ Path.segments path
  let kept := names.foldl (fun (kept : List String) name =>
    if name == "" || name == "." then kept
    else if name == ".." then kept.drop 1
    else name :: kept) []
  root ++ String.intercalate "/" kept.reverse

def enterDirectory (target : String) : Eval Bool := do
  let s ← get
  let logical := normalized s.directory target
  match s.files.locate (spelled logical) with
  | .error _ => return false
  | .ok place =>
    if s.files.entryAt? place != some .directory || target.isEmpty then return false
    else
      let old := s.directory
      set { s with files := s.files.seenFrom place, directory := logical }
      modify fun s => s.bind "OLDPWD" ⟨some old, true, false⟩
      modify fun s => s.bind "PWD" ⟨some logical, true, false⟩
      return true

def changeDirectory (args : List String) : Eval Nat := do
  let (_, operands) ← builtinOptions (flagsAmong "LP") args
  let s ← get
  let (target, shown) : String × Bool := match operands with
    | [] => ((s.value? "HOME").getD "", false)
    | "-" :: _ => ((s.value? "OLDPWD").getD "", true)
    | t :: _ => (t, false)
  let isRelative := !(["/", "./", "../"].any fun front => target.startsWith front) &&
    target != "." && target != ".."
  let bases := match s.value? "CDPATH" with
    | some path => if isRelative then path.splitOn ":" else []
    | none => []
  let target := if target.isEmpty then "." else target
  let entered ← bases.foldlM (fun (done : Bool) base => do
    if done then return true
    else
      let path := if base.isEmpty then target else base ++ "/" ++ target
      let found ← enterDirectory path
      if found && !base.isEmpty then say ((← get).directory ++ "\n")
      return found) false
  if entered then return 0
  else if ← enterDirectory target then
    if shown then say ((← get).directory ++ "\n")
    return 0
  else fail ("can't cd to " ++ target)

def printDirectory (args : List String) : Eval Nat := do
  let (options, _) ← builtinOptions (flagsAmong "LP") args
  let s ← get
  match options.getLast? with
  | some ('P', _) => say ("/" ++ String.intercalate "/" (s.files.workingDirectory.map octets) ++ "\n")
  | _ => say (s.directory ++ "\n")
  return 0

def shiftArguments (args : List String) : Eval Nat := do
  let n ← match args with
    | [] => pure 1
    | w :: _ => countOf w
  let s ← get
  if s.arguments.length < n then fail "can't shift that many"
  else
    setArguments (s.arguments.drop n)
    return 0

def makeLocal (args : List String) : Eval Nat := do
  unless (← get).isInFunction do fail "not in a function"
  args.forM fun w => do
    let (name, value) := splitAssignment w
    if w != "-" && !isName name.toList then fail (name ++ ": bad variable name")
    modify fun s => { s with shadowed := (name, s.binding? name) :: s.shadowed }
    match value with
    | some value => assignVariable name value
    | none => pure ()
  return 0

def statusOf (args : List String) : Eval Nat := do
  match args with
  | [] => return (← get).status
  | w :: _ => countOf w

def leaveLoops (interrupt : Nat → Interrupt) (args : List String) : Eval Nat := do
  let n ← match args with
    | [] => pure 1
    | w :: _ => countOf w
  if n == 0 then fail ("Illegal number: " ++ args.headD "")
  setStatus 0
  let depth := min n (← get).loops
  if 0 < depth then throw (interrupt depth)
  return 0

def takeOption (args : List String) : Eval Nat := do
  match ← operandsOf args with
  | spec :: name :: given =>
    let s ← get
    let words := if given.isEmpty && args.length < 3 then s.arguments else given
    let (index, place) : Nat × Option Nat :=
      if words.length + 1 < s.nextOption then (1, none) else (s.nextOption, s.letter)
    let silent := spec.toList.head? == some ':'
    let finish (status index : Nat) (letter : Option Nat) (found : String) : Eval Nat := do
      assignVariable "OPTIND" (toString index)
      if !isName name.toList then fail (name ++ ": bad variable name")
      assignVariable name found
      modify fun s => { s with nextOption := index, letter := letter }
      return status
    let inside : List Char := match place with
      | some n => ((words.getD (index - 2) "").toList).drop n
      | none => []
    let fresh : Option (List Char) := match (words[index - 1]?).map String.toList with
      | some ('-' :: c :: cs) => some (c :: cs)
      | _ => none
    let (letters, index) : Option (List Char) × Nat :=
      if !inside.isEmpty then (some inside, index)
      else (fresh, if fresh.isSome then index + 1 else index)
    match letters with
    | none => finish 1 index none "?"
    | some ['-'] =>
      if inside.isEmpty then finish 1 index none "?" else unknown finish silent '-' [] index words
    | some [] => finish 1 index none "?"
    | some (c :: cs) =>
      let position := (words.getD (index - 2) "").length - cs.length
      let next : Option Nat := if cs.isEmpty then none else some position
      match lookUp spec.toList c with
      | none => unknown finish silent c cs index words
      | some false =>
        assignVariable "OPTARG" ""
        finish 0 index next (String.singleton c)
      | some true =>
        if !cs.isEmpty then
          assignVariable "OPTARG" (String.ofList cs)
          finish 0 index none (String.singleton c)
        else
          match words[index - 1]? with
          | some value =>
            assignVariable "OPTARG" value
            finish 0 (index + 1) none (String.singleton c)
          | none =>
            if silent then
              assignVariable "OPTARG" (String.singleton c)
              finish 0 index none ":"
            else
              complain ("No arg for -" ++ String.singleton c ++ " option\n")
              modify fun s => s.unset "OPTARG"
              finish 0 index none "?"
  | _ => fail "Usage: getopts optstring var [arg...]"
where
  lookUp (spec : List Char) (c : Char) : Option Bool :=
    match spec with
    | [] => none
    | d :: ds => if d == c && c != ':' then some (ds.head? == some ':') else lookUp ds c
  unknown (finish : Nat → Nat → Option Nat → String → Eval Nat) (silent : Bool) (c : Char)
      (cs : List Char) (index : Nat) (words : List String) : Eval Nat := do
    let position := (words.getD (index - 2) "").length - cs.length
    if silent then assignVariable "OPTARG" (String.singleton c)
    else
      complain ("Illegal option -" ++ String.singleton c ++ "\n")
      modify fun s => s.unset "OPTARG"
    finish 0 index (if cs.isEmpty then none else some position) "?"

def setTraps (args : List String) : Eval Nat := do
  match ← operandsOf args with
  | [] =>
    let s ← get
    (s.traps.mergeSort fun a b => a.1 ≤ b.1).forM fun (signal, action) =>
      say ("trap -- " ++ singleQuoted action ++ " " ++ signalName signal ++ "\n")
    return 0
  | first :: more =>
    let plain := more.isEmpty || (isDigits first && (signal? 0 first).isSome)
    let action : Option String := if plain || first == "-" then none else some first
    (if plain then first :: more else more).foldlM (fun status word => do
      if status != 0 then return status
      else
        match signal? 0 word with
        | none =>
          complain ("trap: " ++ word ++ ": bad trap\n")
          return 1
        | some signal =>
          modify fun s =>
            let others := s.traps.filter fun t => t.1 != signal
            { s with traps := match action with
                | some text => (signal, text) :: others
                | none => others }
          return 0) 0

def octalText (width n : Nat) : String :=
  let ds := Nat.toDigits 8 n
  String.ofList (List.replicate (width - ds.length) '0' ++ ds)

def permissionLetters (bits : Nat) : String :=
  (if bits &&& 4 != 0 then "r" else "") ++ (if bits &&& 2 != 0 then "w" else "") ++
    if bits &&& 1 != 0 then "x" else ""

def permissionBits? (letters : List Char) : Option Nat :=
  letters.foldlM (fun bits c =>
    match c with
    | 'r' => some (bits ||| 0o444)
    | 'w' => some (bits ||| 0o222)
    | 'x' | 'X' => some (bits ||| 0o111)
    | 's' => some (bits ||| 0o6000)
    | 't' => some (bits ||| 0o1000)
    | _ => none) 0

def classBits (letters : List Char) : Nat :=
  letters.foldl (fun bits c => bits |||
    (match c with
      | 'u' => 0o4700
      | 'g' => 0o2070
      | 'o' => 0o1007
      | _ => 0o7777)) 0

/-- Permissions after one clause of a change has been applied to them. The mask
holds where nobody is named. -/
def changedMode? (mask mode : Nat) (clause : List Char) : Option Nat :=
  let isOp (c : Char) : Bool := c == '+' || c == '-' || c == '='
  let who := clause.takeWhile fun c => "ugoa".toList.contains c
  let rec steps : Nat → List Char → Nat → Option Nat
    | 0, _, mode => some mode
    | _, [], mode => some mode
    | fuel + 1, op :: cs, mode =>
      if !isOp op then none
      else
        let letters := cs.takeWhile (!isOp ·)
        let copied : Option Nat := match letters with
          | ['u'] => some ((mode >>> 6) &&& 7)
          | ['g'] => some ((mode >>> 3) &&& 7)
          | ['o'] => some (mode &&& 7)
          | _ => none
        let bits : Option Nat := match copied with
          | some n => some (n * 0o111)
          | none => permissionBits? letters
        match bits with
        | none => none
        | some bits =>
          let scope := if who.isEmpty then 0o7777 else classBits who
          let bits := bits &&& scope
          let bits := if who.isEmpty then bits &&& (0o7777 ^^^ (mask &&& 0o777)) else bits
          let mode := match op with
            | '+' => mode ||| bits
            | '-' => mode &&& (0o7777 ^^^ bits)
            | _ => (mode &&& (0o7777 ^^^ (scope &&& 0o777))) ||| bits
          steps fuel (cs.drop letters.length) mode
  let rest := clause.drop who.length
  if rest.isEmpty then none else steps (rest.length + 1) rest mode

def modeOf? (mask mode : Nat) (word : String) : Option Nat :=
  let cs := word.toList
  if !cs.isEmpty && cs.all isOctal then
    if octalValue cs ≤ 0o7777 then some (octalValue cs) else none
  else (word.splitOn ",").foldlM (fun mode clause => changedMode? mask mode clause.toList) mode

def changeMask (args : List String) : Eval Nat := do
  let (options, operands) ← builtinOptions (flagsAmong "S") args
  let s ← get
  match operands with
  | [] =>
    let given := 0o777 ^^^ s.mask
    if options.isEmpty then say (octalText 4 s.mask ++ "\n")
    else
      say ("u=" ++ permissionLetters (given >>> 6) ++ ",g=" ++ permissionLetters (given >>> 3) ++
        ",o=" ++ permissionLetters given ++ "\n")
    return 0
  | word :: _ =>
    match modeOf? 0 (0o777 ^^^ s.mask) word with
    | some mode =>
      let isNumber := (word.toList.head?.map Char.isDigit).getD false
      set { s with mask := if isNumber then mode &&& 0o777 else 0o777 ^^^ (mode &&& 0o777) }
      return 0
    | none =>
      if (word.toList.head?.map Char.isDigit).getD false then fail ("Illegal number: " ++ word)
      else fail ("Illegal mode: " ++ word)

def limitLetters : List Char := "cdfHlmnpSstvw".toList

def tellLimit (args : List String) : Eval Nat := do
  let takes (c : Char) : Option Bool := if limitLetters.contains c || c == 'a' || c == 'r' then some false else none
  let (options, operands) ← builtinOptions takes args
  if operands.isEmpty then
    match (options.filter fun p => p.1 != 'H' && p.1 != 'S').getLast? with
    | some ('a', _) =>
      let row (title limit : String) : Eval Unit :=
        say (title ++ String.ofList (List.replicate (20 - title.length) ' ') ++ " " ++ limit ++ "\n")
      [("time(seconds)", "unlimited"), ("file(blocks)", "unlimited"), ("data(kbytes)", "unlimited"),
        ("stack(kbytes)", "8192"), ("coredump(blocks)", "0"), ("memory(kbytes)", "unlimited"),
        ("locked memory(kbytes)", "8192"), ("process", "unlimited"), ("nofiles", "1024"),
        ("vmemory(kbytes)", "unlimited"), ("locks", "unlimited"), ("rtprio", "0")].forM fun (t, l) => row t l
    | some ('c', _) => say "0\n"
    | some ('n', _) => say "1024\n"
    | some ('s', _) => say "8192\n"
    | _ => say "unlimited\n"
  return 0

def changeAliases (args : List String) : Eval Nat := do
  let tell (name value : String) : Eval Unit := say (name ++ "=" ++ singleQuoted value ++ "\n")
  if args.isEmpty then
    (← get).aliases.forM fun (name, value) => tell name value
    return 0
  else
    args.foldlM (fun status w => do
      match splitAssignment w with
      | (name, some value) =>
        modify fun s => { s with aliases := s.aliases.filter (·.1 != name) ++ [(name, value)] }
        return status
      | (name, none) =>
        match (← get).aliases.lookup name with
        | some value =>
          tell name value
          return status
        | none =>
          complain ("alias: " ++ name ++ " not found\n")
          return 1) 0

def removeAliases (args : List String) : Eval Nat := do
  let (options, names) ← builtinOptions (flagsAmong "a") args
  if !options.isEmpty then
    modify fun s => { s with aliases := [] }
    return 0
  else
    names.foldlM (fun status name => do
      let s ← get
      if (s.aliases.lookup name).isSome then
        set { s with aliases := s.aliases.filter (·.1 != name) }
        return status
      else
        complain ("unalias: " ++ name ++ " not found\n")
        return 1) 0

def printFormatted (args : List String) : Eval Nat := do
  match ← operandsOf args with
  | [] => fail "usage: printf format [arg ...]"
  | format :: args =>
    let f := formatted format args
    f.complaints.forM explain
    match f.refusal with
    | some message =>
      explain message
      sayBytes (bytesOfOctets f.written.reverse)
      setStatus 2
      throw .failed
    | none =>
      sayBytes (bytesOfOctets f.written.reverse)
      return if f.complaints.isEmpty then 0 else 1

def testStatus (words : List String) : Eval Nat := do
  match Condition.holds (← get).files words with
  | .ok true => return 0
  | .ok false => return 1
  | .error message => fail message

def testBracketed (args : List String) : Eval Nat := do
  match args.getLast? with
  | some "]" => testStatus args.dropLast
  | _ => fail "missing ]"

def builtin? (name : String) : Option (List String → Eval Nat) :=
  match name with
  | ":" | "true" => some fun _ => return 0
  | "false" => some fun _ => return 1
  | "echo" => some fun args => do
    sayBytes (bytesOfOctets (echoed args))
    return 0
  | "printf" => some printFormatted
  | "test" => some testStatus
  | "[" => some testBracketed
  | "pwd" => some printDirectory
  | "exit" => some fun args => do
    let status ← statusOf args
    setStatus status
    throw (.leaveProcess (.exited status))
  | "return" => some fun args => do
    setStatus (← statusOf args)
    throw .leaveFunction
  | "break" => some (leaveLoops .leaveLoop)
  | "continue" => some (leaveLoops .nextRound)
  | "shift" => some shiftArguments
  | "set" => some setOptions
  | "unset" => some unsetNames
  | "export" => some exportNames
  | "readonly" => some fixNames
  | "local" => some makeLocal
  | "read" => some readVariables
  | "cd" | "chdir" => some changeDirectory
  | "getopts" => some takeOption
  | "trap" => some setTraps
  | "umask" => some changeMask
  | "ulimit" => some tellLimit
  | "alias" => some changeAliases
  | "unalias" => some removeAliases
  | "times" => some fun _ => do
    say "0m0.000000s 0m0.000000s\n0m0.000000s 0m0.000000s\n"
    return 0
  | _ => none

def runningBuiltins : List String := ["eval", ".", "exec", "command", "kill", "wait", "type", "hash", "jobs",
  "fg", "bg"]

def isBuiltin (name : String) : Bool := (builtin? name).isSome || runningBuiltins.contains name

def isSpecial (name : String) : Bool := specialNames.contains name

def assigningNames : List String := ["export", "readonly", "local"]

end Retrial.Shell
