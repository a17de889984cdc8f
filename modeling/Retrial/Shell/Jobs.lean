import Retrial.Shell.Runner

/-!
# Jobs and signals

Commands that go on beside the child's script that started them: running them,
waiting for them, and sending signals to them or to the script itself.
-/

set_option autoImplicit false

namespace Retrial.Shell

def withoutRedirects : Item → Item × List Redirect
  | .pipeline negated [.simple line assignments words redirects] =>
    (.pipeline negated [.simple line assignments words []], redirects)
  | .pipeline negated [.redirected _ body redirects] => (.pipeline negated [body], redirects)
  | item => (item, [])

def State.holds (s : State) : List Nat :=
  s.descriptors.filterMap fun (_, index) =>
    match s.opened[index]? with
    | some ⟨.gathered number, _, _, _, _⟩ => some number
    | _ => none

namespace Runner

def runJob (r : Runner) (job : Job) : Eval Unit := do
  let before ← get
  set
    { before with
      toFrame := job.frame
      files := before.files.seenFrom job.place
      clock := job.started
      job := job.number }
  let (item, redirects) := withoutRedirects job.item
  let (index, s) := (← get).addOpen ⟨.nothing, 0, true, false, false⟩
  set (s.connect 0 index)
  let run : Eval (Ended × Bool) := do
    try
      if ← redirectAll r.substitute redirects then
        return (← r.runToEnd (r.items ⟨false, true⟩ [item]), false)
      else return (.exited 2, false)
    catch
      | .killed signal => return (.killed signal, false)
      | .outOfTime => return (.exited 0, true)
      | _ => return (.exited (← get).status, false)
  let held : Eval (List Nat) := do
    let outer ← get
    let _ ← (try redirectAll r.substitute redirects catch _ => pure false)
    let holds := (← get).holds
    set outer
    return holds
  let holds ← held
  let (ending, late) ← run
  modify fun after =>
    { after with
      toFrame := before.toFrame
      files := after.files.seenFrom before.files.workingDirectory
      clock := before.clock
      job := before.job
      ends :=
        { number := job.number
          parent := job.frame.number
          holds := holds
          clock := after.clock
          ending := ending
          late := late
          ignored := 2 :: 3 :: job.frame.traps.map (·.1) } :: after.ends }

def awaitJobs (r : Runner) (numbers : List Nat) : Eval (Option Nat) := do
  r.runPending
  let s ← get
  let ends := s.ends.filter fun e => numbers.contains e.number
  let isNever := ends.any (·.late)
  let ended := s.afterEnds ends
  let isHeard (a : Arrival) : Bool :=
    s.depth == 0 && a.target == s.number && (isNever || a.time < ended.clock) &&
      match s.traps.lookup a.signal with
      | some action => !action.isEmpty
      | none => !isHarmless a.signal
  match (s.signals.filter isHeard).mergeSort fun a b => a.time ≤ b.time with
  | a :: _ =>
    set { s with clock := max s.clock a.time }
    if (← get).isLate then throw .outOfTime
    return some a.signal
  | [] =>
    if isNever then throw .outOfTime
    set ended
    return none

def slot? (s : State) (word : String) : Except String Slot :=
  let named := (word.drop 1).toString
  if !word.startsWith "%" then .error ("No such job: " ++ word)
  else if ["", "%", "+"].contains named then (s.slots.head?).elim (.error "No current job") .ok
  else if named == "-" then ((s.slots.drop 1).head?).elim (.error "No previous job") .ok
  else
    (named.toNat?.bind fun n => s.slots.find? (·.place == n)).elim (.error ("No such job: " ++ word)) .ok

def waitForJob (r : Runner) (job : Slot) : Eval Bool := do
  match ← r.awaitJobs [job.number] with
  | some signal =>
    setStatus (128 + signal)
    return false
  | none =>
    modify fun s =>
      { s with slots := s.slots.map fun j => if j.number == job.number then { j with awaited := true } else j }
    match (← get).ends.find? fun e => e.number == job.number with
    | some e =>
      -- What ended it is told only if nothing has noticed the end before.
      match e.ending, job.seen.any (e.clock ≤ ·) with
      | .killed signal, true => setStatus (128 + signal)
      | ending, _ => takeEnding ending
      modify State.announceChild
    | none => setStatus 127
    return true

def runWait (r : Runner) (args : List String) : Eval Unit := do
  let targets ← operandsOf args
  if targets.isEmpty then
    match ← r.awaitJobs ((← get).slots.map (·.number)) with
    | some signal => setStatus (128 + signal)
    | none =>
      modify fun s => { s with slots := s.slots.map fun j => { j with awaited := true } }
      if (← get).slots.any (·.seen.isNone) then modify State.announceChild
      setStatus 0
  else
    let _ ← targets.foldlM (fun goesOn w => do
      if !goesOn then return false
      else if w.startsWith "%" then
        match slot? (← get) w with
        | .ok job => r.waitForJob job
        | .error message => fail message
      else
        let number ← countOf w
        match (← get).slots.find? (·.number == number) with
        | some job => r.waitForJob job
        | none =>
          setStatus 127
          return true) true
  r.answerSignals

def tellJob (options : List Char) (job : Slot) : Eval Unit := do
  let s ← get
  let ended := s.ends.find? fun e => e.number == job.number && !e.late && e.clock ≤ s.clock
  if options.contains 'p' then say (toString job.number ++ "\n")
  else
    let mark := if (s.slots.head?).any (·.number == job.number) then "+"
      else if ((s.slots.drop 1).head?).any (·.number == job.number) then "-" else " "
    let progress := match ended.map (·.ending) with
      | none => "Running"
      | some (.exited 0) => "Done"
      | some (.exited n) => "Done(" ++ toString n ++ ")"
      | some (.killed signal) => signalDescription signal
    let row := "[" ++ toString job.place ++ "] " ++ mark ++ " " ++
      (if options.contains 'l' then toString job.number ++ " " else "") ++ progress
    say (row ++ String.ofList (List.replicate (max 1 (33 - row.length)) ' ') ++
      String.join (List.replicate (job.stages - 1) " | ") ++ "\n")
    if ended.isSome then
      modify fun s => { s with slots := s.slots.filter (·.number != job.number) }

def listJobs (r : Runner) (args : List String) : Eval Unit := do
  let (options, words) ← builtinOptions (flagsAmong "lp") args
  r.runPending
  modify State.endChild
  if words.isEmpty then ((← get).slots).forM (tellJob (options.map (·.1)))
  else
    words.forM fun w => do
      match slot? (← get) w with
      | .ok job => tellJob (options.map (·.1)) job
      | .error message => fail message
  setStatus 0

def refuseJob (args : List String) : Eval Unit := do
  let words ← operandsOf args
  let word := words.headD "%"
  match slot? (← get) word with
  | .ok _ => fail ("job " ++ words.headD "(null)" ++ " not created under job control")
  | .error message => fail message

def sendSignal (r : Runner) (signal : Nat) (target : String) : Eval Unit := do
  let refuse : Eval Unit := do
    explain "No such process\n"
    setStatus 1
  if target.startsWith "%" then
    -- Without a terminal no job is a group of processes.
    match slot? (← get) target with
    | .ok _ => refuse
    | .error message => fail message
  else
    let number ← countOf (if target.startsWith "-" then (target.drop 1).toString else target)
    let s ← get
    let isOwn := number == s.number || number == 0
    if isOwn && s.depth == 0 then r.answerSignal signal
    else if isOwn || s.lineage.contains number then
      let goal := if number == 0 then s.number else number
      set { s with signals := s.signals ++ [(⟨goal, signal, s.clock⟩ : Arrival)] }
    else
      r.runPending
      let s ← get
      match s.ends.find? fun e => e.number == number && s.clock < e.clock with
      | some e =>
        unless isHarmless signal || isStopping signal || (e.ignored.contains signal && !isUnstoppable signal) do
          let others := s.ends.filter (·.number != e.number)
          modify fun s =>
            { s.dropAfter e.number s.clock with
              ends := { e with clock := s.clock, ending := .killed signal, late := false } :: others }
      | none => refuse

def runKill (r : Runner) (args : List String) : Eval Unit := do
  let takes (c : Char) : Option Bool := if c == 's' then some true else flagsAmong "l" c
  let first := args.headD ""
  let (signal, listing, targets) : Nat × Bool × List String ←
    if !first.startsWith "-" then pure (15, false, args)
    else
      match signal? 1 (first.drop 1).toString with
      | some n => pure (n, false, args.drop 1)
      | none => do
        let (options, rest) ← builtinOptions takes args
        let listing := options.any (·.1 == 'l')
        match (options.filter (·.1 == 's')).getLast? with
        | some (_, word) =>
          match signal? 1 word with
          | some n => pure (n, listing, rest)
          | none => fail ("invalid signal number or name: " ++ word)
        | none => pure (15, listing, rest)
  setStatus 0
  match listing, targets with
  | true, [] =>
    say "0\n"
    (List.range lastSignal).forM fun n => say (signalName (n + 1) ++ "\n")
  | true, w :: _ =>
    let n ← countOf w
    let n := if 128 < n then n - 128 else n
    if 0 < n && n ≤ lastSignal then say (signalName n ++ "\n")
    else fail ("invalid signal number or exit status: " ++ w)
  | false, [] =>
    fail "Usage: kill [-s sigspec | -signum | -sigspec] [pid | job]... or\nkill -l [exitstatus]"
  | false, targets => targets.forM (r.sendSignal signal)

end Runner

end Retrial.Shell
