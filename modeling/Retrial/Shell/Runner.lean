import Retrial.Shell.Program

/-!
# Runners

The parts of the shell that runs a child's script call each other: a command runs
scripts, a script runs commands, and programs are scripts again. A runner is what
each of them needs of the others. The runner of some fuel uses one of less fuel,
so that all parts can be told one by one, and a run always comes to an end.
-/

set_option autoImplicit false

namespace Retrial.Shell

open Retrial.Text

/-- How a command is run: whether something else asks about its failure, and
whether its process ends with it. -/
structure Mode where
  tested : Bool
  final : Bool
  deriving DecidableEq, Repr

namespace Mode

def plain : Mode := ⟨false, false⟩

def asked : Mode := ⟨true, false⟩

def inside (m : Mode) : Mode := { m with final := false }

def last (m : Mode) : Mode := { m with final := true }

end Mode

structure Runner where
  items : Mode → Script → Eval Unit
  command : Mode → Command → Eval Unit
  /-- Goes on with a loop whose last round had some status. -/
  loop : Mode → Bool → Script → Script → Nat → Eval Unit
  /-- Runs a text command by command, its first line having the given number.
  Says whether there was a command in it. -/
  text : Mode → List Char → Nat → Eval Bool
  /-- Starts a program, or refuses to. -/
  start : (String → IoFault → Eval Nat) → List String → Eval Ended
  /-- Runs jobs that have been started, and those that they start. -/
  jobs : List Job → Eval Unit

namespace Runner

def exhausted : Runner where
  items _ _ := throw .outOfTime
  command _ _ := throw .outOfTime
  loop _ _ _ _ _ := throw .outOfTime
  text _ _ _ := throw .outOfTime
  start _ _ := throw .outOfTime
  jobs _ := throw .outOfTime

def runPending (r : Runner) : Eval Unit := do
  let s ← get
  unless s.jobs.isEmpty do
    set { s with jobs := [] }
    r.jobs s.jobs

def settle (r : Runner) (number : Nat) : Eval Unit := do
  r.runPending
  awaitEnds fun e => e.holds.contains number

def answerSignal (r : Runner) (signal : Nat) : Eval Unit := do
  let s ← get
  match s.traps.lookup signal, isUnstoppable signal || signal == 0 with
  | some action, false =>
    unless action.isEmpty do
      let _ ← r.text .plain action.toList 1
      setStatus s.status
  | _, _ =>
    if isHarmless signal then return
    else if isStopping signal then throw .outOfTime
    else throw (.killed signal)

def answerSignals (r : Runner) : Eval Unit := do
  let s ← get
  unless 0 < s.depth do
    let isDue (a : Arrival) : Bool := a.target == s.number && a.time ≤ s.clock
    set { s with signals := s.signals.filter fun a => !isDue a }
    ((s.signals.filter isDue).mergeSort fun a b => a.time ≤ b.time).forM fun a => r.answerSignal a.signal

end Runner

def caught (body : Eval Unit) : Eval Ended := do
  try
    body
    return .exited (← get).status
  catch
    | .leaveProcess ending => return ending
    | .killed signal => throw (.killed signal)
    | .outOfTime => throw .outOfTime
    | _ => return .exited (← get).status

def forking {α : Type} (body : Eval α) : Eval α := do
  modify State.beginChild
  let answer ← body
  modify fun s => s.endChild.announceChild
  return answer

namespace Runner

def runToEnd (r : Runner) (body : Eval Unit) : Eval Ended := do
  let ending ← caught body
  let ending ← match ending, (← get).traps.lookup 0 with
    | .exited status, some action =>
      modify fun s => { s with traps := s.traps.filter (·.1 != 0), status := status, busy := none }
      caught do
        let _ ← r.text .plain action.toList 1
        setStatus status
    | ending, _ => pure ending
  -- Only the lowest octet of a status outlives the process.
  return match ending with
    | .exited status => .exited (status % 256)
    | .killed signal => .killed signal

def runApart (r : Runner) (mode : Mode) (script : Script) : Eval Ended :=
  isolated do
    modify fun s =>
      { s with
        traps := s.traps.filter (·.2.isEmpty)
        depth := s.depth + 1
        loops := 0
        slots := [] }
    r.runToEnd (r.items mode.last script)

def substitute (r : Runner) (script : Script) : Eval Bytes := do
  let before := (← get).status
  let (bytes, ending) ← forking (gathering none r.settle (r.runApart .plain script))
  takeEnding ending
  r.answerSignals
  modify fun s => { s with status := before, substituted := s.status }
  return bytes

end Runner

def refuseStream {α : Type} : Eval α := do
  modify fun s => { s with line := s.reached }
  fail "Syntax error: Bad fd number"

def copyStream (stream : Nat) (source : String) : Eval Bool := do
  match source.toList with
  | ['-'] =>
    modify fun s => s.disconnect stream
    return true
  | [c] =>
    if !c.isDigit then refuseStream
    else
      let s ← get
      match s.openFile? (c.toNat - '0'.toNat) with
      | some (index, _) =>
        set (s.connect stream index)
        return true
      | none =>
        explain (source ++ ": Bad file descriptor")
        return false
  | _ => refuseStream

def redirect (run : Script → Eval Bytes) : Redirect → Eval Bool
  | .file stream opening target => do openStream stream opening (← expandText run target)
  | .copy stream source => do copyStream stream (← expandText run source)
  | .here stream _ body => do
    let text := charsOf (joined (← expandWord run false false body))
    let (index, s) := (← get).addOpen ⟨.supply (bytesOfOctets text), 0, true, false, false⟩
    set (s.connect stream index)
    return true

def redirectAll (run : Script → Eval Bytes) : List Redirect → Eval Bool
  | [] => return true
  | r :: rs => do
    if ← redirect run r then redirectAll run rs else return false

end Retrial.Shell
