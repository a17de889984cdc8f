import Retrial.Shell.Jobs
import Retrial.Shell.Process

/-!
# Running scripts

The script of a child is run command by command on the state of its process. Every
step takes some fuel, and a script that has none left counts as one that would not
come to an end in time. Commands in brackets, in pipelines and in substitutions
run on a copy of the process: they change files and time, but nothing else around
them.

A job is run as late as anything can ask about it: before a sleep, a wait or a
signal to it, and before its output is looked at.
-/

set_option autoImplicit false

namespace Retrial.Shell

open Retrial.Text

/-- The words of a simple command. Behind some names a word may be an assignment,
whose value is one text. -/
def expandWords (run : Script → Eval Bytes) : List Word → Eval (List String)
  | [] => return []
  | w :: ws => do
    let fields ← expandFields run w
    match fields with
    | [] => expandWords run ws
    | name :: _ =>
      let next := (ws.head?.bind Word.bareText?).map String.ofList
      let isAssigning := assigningNames.contains name ||
        (name == "command" && (next.map assigningNames.contains).getD false)
      let rest ← if isAssigning then
          ws.mapM fun w => do
            match w.assignment? with
            | some (n, value) => return [n ++ "=" ++ (← expandValue run value)]
            | none => expandFields run w
        else ws.mapM (expandFields run)
      return fields ++ rest.flatten

/-- Shows a command before it is run, on the stream where complaints went before
its redirections. -/
def trace (outer : List (Nat × Nat)) (texts : List String) : Eval Unit := do
  let s ← get
  if s.has 'x' then
    let inner := s.descriptors
    set { s with descriptors := outer }
    complain ((s.value? "PS4").getD "" ++ String.intercalate " " texts ++ "\n")
    modify fun s => { s with descriptors := inner }

def withoutCommand : List String → List String × Bool
  | "command" :: "--" :: name :: args => let (words, _) := withoutCommand (name :: args); (words, true)
  | "command" :: "-p" :: name :: args => let (words, _) := withoutCommand (name :: args); (words, true)
  | "command" :: name :: args =>
    if name.startsWith "-" then ("command" :: name :: args, false)
    else let (words, _) := withoutCommand (name :: args); (words, true)
  | words => (words, false)

def remember (name : String) : Eval Unit := do
  let s ← get
  unless name.toList.contains '/' || (s.known.lookup name).isSome do
    match findProgram s.files s.searchPath name with
    | .ok (path, _) => set { s with known := s.known ++ [(name, path)] }
    | .error _ => pure ()

def describe (verbose : Bool) (name : String) : Eval Nat := do
  let s ← get
  let tell (sentence word : String) : Eval Nat := do
    say ((if verbose then name ++ sentence else word) ++ "\n")
    return 0
  if keywords.contains name then tell " is a shell keyword" name
  else
    match s.aliases.lookup name with
    | some value => tell (" is an alias for " ++ value) ("alias " ++ name ++ "=" ++ singleQuoted value)
    | none =>
      if (s.functions.lookup name).isSome then tell " is a shell function" name
      else if isSpecial name then tell " is a special shell builtin" name
      else if isBuiltin name then tell " is a shell builtin" name
      else
        match findProgram s.files s.searchPath name with
        | .ok (path, _) =>
          remember name
          let isKnown := (s.known.lookup name).isSome
          tell (if isKnown then " is a tracked alias for " ++ path else " is " ++ path) path
        | .error _ =>
          if verbose then say (name ++ ": not found\n")
          return 127

def isJudged : List Command → Bool
  | [.simple ..] | [.subshell ..] | [.redirected _ (.subshell ..) _] => true
  | [_] => false
  | _ => true

def looping (body : Eval Unit) : Eval Unit := do
  modify fun s => { s with loops := s.loops + 1 }
  let leave : Eval Unit := modify fun s => { s with loops := s.loops - 1 }
  try body
  catch e => leave; throw e
  leave

def assigning {α : Type} (lasting : Bool) (run : Script → Eval Bytes)
    (assignments : List (String × Word)) (body : List String → Eval α) : Eval α := do
  let before := (← get).names
  let shown ← assignments.mapM fun (name, word) => do
    let value ← expandValue run word
    assignVariable name value
    unless lasting do modify fun s => s.bind name ⟨some value, true, false⟩
    return name ++ "=" ++ value
  let restore : Eval Unit :=
    unless lasting do
      assignments.forM fun (name, _) => modify fun s => s.rebind name (before.lookup name)
  try
    let answer ← body shown
    restore
    return answer
  catch e => restore; throw e

namespace Runner

/-- Runs a program that is no part of the shell. Where the process ends with it,
it takes the place of the process. -/
def runProgram (r : Runner) (mode : Mode) (args : List String) : Eval Unit := do
  let name := args.headD ""
  remember name
  let s ← get
  let ending ← match refusal? s.files (s.value? "PATH") name with
    | some fault => pure (.exited (← explainRefusal name fault))
    | none => forking (r.start explainRefusal args)
  match ending with
  | .killed _ =>
    if mode.final && (← get).traps.isEmpty then throw (.leaveProcess ending)
    takeEnding ending
  | .exited status => setStatus status
  r.answerSignals

def runExec (r : Runner) (args : List String) : Eval Unit := do
  match ← operandsOf args with
  | [] => setStatus 0
  | words =>
    let s ← get
    let ending ← match refusal? s.files (s.value? "PATH") (words.headD "") with
      | some fault => pure (.exited (← explainRefusal (words.headD "") fault))
      | none => r.start explainRefusal words
    match findProgram s.files (s.value? "PATH") (words.headD "") with
    | .ok _ | .error .executableFormat => modify fun s => { s with traps := [] }
    | .error _ => pure ()
    throw (.leaveProcess ending)

def runSource (r : Runner) (args : List String) : Eval Unit := do
  match ← operandsOf args with
  | [] => setStatus 0
  | word :: _ =>
    let s ← get
    let isFile (path : String) : Bool := s.files.isFile (spelled path)
    let found : Option String :=
      if word.toList.contains '/' then some word
      else (candidates ((s.value? "PATH").getD standardPath) word).find? isFile
    match found with
    | none => fail (word ++ ": not found")
    | some path =>
      let opened ← openPath .read path
      let s ← get
      let content : Except IoFault Bytes := opened.bind fun index =>
        match s.opened[index]? with
        | some f => s.unreadOf f
        | none => .error .badDescriptor
      match content with
      | .error .isADirectory => setStatus 0
      | .error fault => fail ("cannot open " ++ path ++ ": " ++ openFault fault)
      | .ok bytes =>
        modify fun s => { s with busy := some path }
        try
          unless ← r.text .plain (octetsOf bytes) 1 do setStatus 0
        catch
          | .leaveFunction => pure ()
          | e => throw e

def runHash (args : List String) : Eval Unit := do
  let (options, words) ← builtinOptions (flagsAmong "r") args
  setStatus 0
  if !options.isEmpty then modify fun s => { s with known := [] }
  else if words.isEmpty then
    let known := (← get).known.map fun p => (State.drawerOf 31 p.1, p.2)
    (known.mergeSort fun a b => a.1 ≤ b.1).forM fun p => say (p.2 ++ "\n")
  words.forM fun w => do
    let s ← get
    unless isBuiltin w || (s.functions.lookup w).isSome do
      match findProgram s.files s.searchPath w with
      | .ok _ => remember w
      | .error _ =>
        explain (w ++ ": not found")
        setStatus 1

def runRunning (r : Runner) (mode : Mode) (name : String) (args : List String) : Eval Unit := do
  match name with
  | "eval" => unless ← r.text mode.inside (String.intercalate " " args).toList 1 do setStatus 0
  | "." => r.runSource args
  | "exec" => r.runExec args
  | "kill" => r.runKill args
  | "wait" => r.runWait args
  | "type" => setStatus (← args.foldlM (fun status w => return max status (← describe true w)) 0)
  | "hash" => runHash args
  | "jobs" => r.listJobs args
  | "fg" | "bg" => refuseJob args
  | "command" =>
    let (options, words) ← builtinOptions (flagsAmong "pvV") args
    match words.head?, options.getLast? with
    | some w, some ('v', _) => setStatus (← describe false w)
    | some w, some ('V', _) => setStatus (← describe true w)
    | some _, _ => r.runProgram mode words
    | none, _ => setStatus 0
  | _ => setStatus 0

/-- Runs a command of the language. A failure of one that is not special is a
status and no more. -/
def runBuiltin (r : Runner) (mode : Mode) (special : Bool) (name : String) (args : List String) :
    Eval Unit := do
  let busy := (← get).busy
  modify fun s => { s with busy := some name, lost := false }
  let restore : Eval Unit := modify fun s => { s with busy := busy, lost := false }
  try
    match builtin? name with
    | some run => setStatus (← run args)
    | none => r.runRunning mode name args
    if (← get).lost then
      explain (name ++ ": I/O error")
      modify fun s => s.setStatus (max 1 s.status)
  catch
    | .failed =>
      restore
      if special then throw .failed
    | e => restore; throw e
  restore

def runFunction (r : Runner) (mode : Mode) (body : Command) (args : List String) : Eval Unit := do
  let before ← get
  modify fun s =>
    { s with
      arguments := args
      shadowed := []
      isInFunction := true
      loops := 0
      nextOption := 1
      letter := none }
  let restore : Eval Unit := modify fun s =>
    let t := s.shadowed.foldl (fun t (n, old) => t.rebind n old) s
    { t with
      arguments := before.arguments
      shadowed := before.shadowed
      isInFunction := before.isInFunction
      loops := before.loops
      nextOption := before.nextOption
      letter := before.letter }
  try r.command mode.inside body
  catch
    | .leaveFunction => pure ()
    | e => restore; throw e
  restore

def runNamed (r : Runner) (mode : Mode) (assignments : List (String × Word)) (texts : List String)
    (redirects : List Redirect) (name : String) (args : List String) (direct : Bool) :
    Eval Unit := do
  let s ← get
  let function := if direct then none else s.functions.lookup name
  let special := isSpecial name && !direct && function.isNone
  let attempt : Eval Unit := do
    if ← redirectAll r.substitute redirects then
      assigning special r.substitute assignments fun shown => do
        trace s.descriptors (shown ++ texts)
        match function with
        | some body => r.runFunction mode body args
        | none =>
          if isBuiltin name then r.runBuiltin mode special name args
          else r.runProgram mode (name :: args)
    else
      setStatus 2
      if special then throw .failed
  if name == "exec" && function.isNone then attempt else restoring attempt

def runSimple (r : Runner) (mode : Mode) (assignments : List (String × Word)) (words : List Word)
    (redirects : List Redirect) : Eval Unit := do
  modify fun s => { s with substituted := 0 }
  let texts ← expandWords r.substitute words
  match withoutCommand texts with
  | ([], _) =>
    let outer := (← get).descriptors
    restoring do
      if ← redirectAll r.substitute redirects then
        assigning true r.substitute assignments (trace outer)
        modify fun s => s.setStatus s.substituted
      else setStatus 2
  | (name :: args, direct) => r.runNamed mode assignments texts redirects name args direct

def runBranches (r : Runner) (mode : Mode) (otherwise : Script) : List (Script × Script) → Eval Unit
  | [] => if otherwise.isEmpty then setStatus 0 else r.items mode otherwise
  | (test, body) :: more => do
    r.items .asked test
    if (← get).status == 0 then r.items mode body else r.runBranches mode otherwise more

def runRound (r : Runner) (mode : Mode) (body : Script) : Eval (Bool × Bool) := do
  try
    r.items mode body
    return (true, true)
  catch
    | .leaveLoop depth => if depth ≤ 1 then return (false, false) else throw (.leaveLoop (depth - 1))
    | .nextRound depth => if depth ≤ 1 then return (true, false) else throw (.nextRound (depth - 1))
    | e => throw e

def runLoop (r : Runner) (mode : Mode) (goal : Bool) (test body : Script) (last : Nat) : Eval Unit := do
  match ← r.runRound .asked test with
  | (false, _) => setStatus last
  | (true, false) => r.loop mode goal test body last
  | (true, true) =>
    if ((← get).status == 0) == goal then
      let (goesOn, _) ← r.runRound mode body
      let status := (← get).status
      if goesOn then r.loop mode goal test body status
    else setStatus last

def runRounds (r : Runner) (mode : Mode) (name : String) (body : Script) : List String → Eval Unit
  | [] => return
  | value :: more => do
    assignVariable name value
    let (goesOn, _) ← r.runRound mode body
    if goesOn then r.runRounds mode name body more

def fits (r : Runner) (cs : List Char) : List Word → Eval Bool
  | [] => return false
  | p :: more => do
    if isMatch (← expandPattern r.substitute p) cs then return true else r.fits cs more

def runArms (r : Runner) (mode : Mode) (cs : List Char) : List (List Word × Script) → Eval Unit
  | [] => setStatus 0
  | (patterns, body) :: more => do
    if !(← r.fits cs patterns) then r.runArms mode cs more
    else if body.isEmpty then setStatus 0
    else r.items mode body

def atLine (line : Nat) : Eval Unit := modify fun s => { s with line := line }

def runCommand (r : Runner) (mode : Mode) : Command → Eval Unit
  | .simple line assignments words redirects => do
    atLine line
    r.runSimple mode assignments words redirects
  | .redirected line body redirects => do
    atLine line
    restoring do
      if ← redirectAll r.substitute redirects then r.command mode.inside body else setStatus 2
  | .group body => r.items mode body
  | .subshell line body => do
    atLine line
    let ending ← forking (r.runApart mode body)
    if mode.final && (← get).traps.isEmpty then throw (.leaveProcess ending)
    takeEnding ending
    r.answerSignals
  | .conditional branches otherwise => r.runBranches mode otherwise branches
  | .loop goal test body => looping (r.runLoop mode.inside goal test body 0)
  | .each line name words body => do
    atLine line
    let values ← match words with
      | some words => expandAll r.substitute words
      | none => pure (← get).arguments
    setStatus 0
    looping (r.runRounds mode.inside name body values)
  | .choice line word arms => do
    atLine line
    let text ← expandText r.substitute word
    r.runArms mode text.toList arms
  | .definition _ name body =>
    modify fun s =>
      { s with functions := (name, body) :: s.functions.filter (·.1 != name), status := 0 }

def runStages (r : Runner) (mode : Mode) : List Command → Eval Unit
  | [] => return
  | [c] => do takeEnding (← r.runApart mode [.pipeline false [c]])
  | c :: more => do
    let (bytes, ending) ←
      gathering (some pipeLimit) r.settle (r.runApart mode [.pipeline false [c]])
    takeEnding ending
    supplied bytes (r.runStages mode more)

def runPipeline (r : Runner) (mode : Mode) (commands : List Command) : Eval Unit := do
  unless (← get).has 'n' do
    match commands with
    | [c] => r.command mode c
    | commands =>
      forking (r.runStages mode commands)
      r.answerSignals

def runItem (r : Runner) (mode : Mode) : Item → Eval Unit
  | .both first second => do
    r.runItem .asked first
    if (← get).status == 0 then r.runItem mode second
  | .either first second => do
    r.runItem .asked first
    if (← get).status != 0 then r.runItem mode second
  | .background item => do
    let number ← freshNumber
    let stages := match item with
      | .pipeline _ commands => commands.length
      | _ => 1
    modify fun s =>
      let frame := { s.toFrame with traps := s.traps.filter (·.2.isEmpty), depth := s.depth + 1, slots := [] }
      { s.addSlot number stages with
        jobs := s.jobs ++ [⟨number, frame, s.files.workingDirectory, item, s.clock⟩]
        status := 0 }
  | .pipeline true commands => do
    r.runPipeline .asked commands
    modify fun s => s.setStatus (if s.status == 0 then 1 else 0)
  | .pipeline false commands => do
    r.runPipeline mode commands
    let s ← get
    if isJudged commands && s.has 'e' && !mode.tested && s.status != 0 then
      throw (.leaveProcess (.exited s.status))

def runItems (r : Runner) (mode : Mode) : Script → Eval Unit
  | [] => return
  | [item] => r.runItem mode item
  | item :: more => do
    r.runItem mode.inside item
    r.runItems mode more

def runText (r : Runner) (mode : Mode) (text : List Char) (line : Nat) : Eval Bool := do
  let s ← get
  let reveal (rest : List Char) : Eval Unit := do
    if s.has 'v' then complain (String.ofList (text.take (text.length - rest.length)))
  match readStep text line s.aliases with
  | .error fault =>
    reveal []
    atLine fault.line
    fail ("Syntax error: " ++ fault.message)
  | .ok step =>
    reveal step.rest
    modify fun t => { t with reached := step.line }
    unless s.has 'n' do
      r.items { mode with final := mode.final && step.finished } step.items
    let more ← if step.finished then pure false else r.text mode step.rest step.line
    modify fun t => { t with reached := s.reached }
    return more || !step.items.isEmpty

def runJobs (r : Runner) (jobs : List Job) : Eval Unit := do
  jobs.forM r.runJob
  r.runPending

def ofFuel : Nat → Runner
  | 0 => exhausted
  | fuel + 1 =>
    { items := fun mode script => (ofFuel fuel).runItems mode script
      command := fun mode c => (ofFuel fuel).runCommand mode c
      loop := fun mode goal test body last => (ofFuel fuel).runLoop mode goal test body last
      text := fun mode text line => (ofFuel fuel).runText mode text line
      start := fun refuse words => (ofFuel fuel).launch refuse words
      jobs := fun jobs => (ofFuel fuel).runJobs jobs }

end Runner

end Retrial.Shell
