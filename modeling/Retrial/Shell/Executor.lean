import Retrial.Shell.Evaluation
import Retrial.Supervision
import Retrial.Text.Quoted

/-!
# Attempts as scripts

Attempts are run by interpreting the script that their program names. The
interpreter is the child's side of a run: a supervisor hands it a request and
learns its end, its output and its log, and nothing that a supervisor decides
looks into it. What the script writes on either stream is captured in one text,
its input is empty, and it ends at the latest when its timeout has passed on the
clock of the run.
-/

set_option autoImplicit false

namespace Retrial.Shell

open Retrial.Text

/-- The steps within each other that a script is given before it counts as endless. -/
def depthAllowed : Nat := 20000

def firstNumber : Nat := 4000

def startingState (files : Files) (env : Environment) (clock : Nat) (deadline : Option Nat) : State where
  names := bindings ((env.map fun (name, value) => (octets name, octets value)).mergeSort fun a b => a.1 ≤ b.1)
  functions := []
  aliases := []
  arguments := []
  title := ""
  number := firstNumber
  lineage := []
  depth := 0
  line := 1
  reached := 1
  busy := none
  status := 0
  substituted := 0
  descriptors := [(0, 0), (1, 1), (2, 1)]
  traps := []
  shadowed := []
  isInFunction := false
  loops := 0
  options := []
  directory := octets ("/" ++ String.intercalate "/" files.workingDirectory)
  nextOption := 1
  letter := none
  lastJob := none
  slots := []
  known := []
  mask := 0o022
  files := files
  opened := #[⟨.nothing, 0, true, false, false⟩, ⟨.gathered 0, 0, false, true, false⟩]
  gathered := #[⟨[], 0, none⟩]
  jobs := []
  ends := []
  job := 0
  nextNumber := firstNumber + 1
  clock := clock
  deadline := deadline
  signals := []
  lost := false

def exitOf : Ended → Exit
  | .exited status => .ofStatus (status * 256)
  | .killed signal => .ofStatus signal

def nulInArguments : IoFault := .other "nul byte found in provided data"

def hasNul (text : String) : Bool := text.toList.contains '\x00'

def enter (files : Files) : Option String → Except IoFault Files
  | none => .ok files
  | some cwd =>
    match files.locate cwd with
    | .error fault => .error fault
    | .ok place =>
      match files.entryAt? place with
      | some .directory => .ok (files.seenFrom place)
      | some _ => .error .notADirectory
      | none => .error .noSuchEntry

/-- A program named by a relative path is looked up before the directory is entered. -/
def programPath (files : Files) (q : Request) (program : String) : Except IoFault String :=
  if q.cwd.isSome && program.toList.contains '/' && !Path.isAbsolute program then
    match files.locate program with
    | .error fault => .error fault
    | .ok place =>
      if (files.entryAt? place).isSome then .ok ("/" ++ String.intercalate "/" place)
      else .error .noSuchEntry
  else .ok program

def textBound : Nat := 131072

def isTooLong (text : String) : Bool := textBound ≤ text.utf8ByteSize

def prepare (files : Files) (env : Environment) (q : Request) (program : String)
    (args : List String) : Except IoFault (Files × List String) := do
  let path ← programPath files q program
  let texts := path :: args ++ env.map fun p => p.1 ++ "=" ++ p.2
  if texts.any hasNul || q.cwd.any hasNul then throw nulInArguments
  let inside ← enter files q.cwd
  let _ ← findProgram inside ((env.get? "PATH").map octets) (octets path)
  if texts.any isTooLong then throw .argumentsTooLong
  return (inside, path :: args)

def logState (files : Files) (logPath : Option String) : LogState :=
  match logPath with
  | some path => .load files path
  | none => .notExpected

def perform (inherited : Environment) (q : Request) (files : Files) (clock : Nat) :
    Except ExecuteFault Outcome × Files × Nat :=
  match q.args with
  | [] => (.error (.emptyCommand q.attempt), files, clock)
  | program :: args =>
    let env := inherited.setAll q.env
    match prepare files env q program args with
    | .error fault => (.error (.spawn (commandLine q.args) fault), files, clock)
    | .ok (inside, argv) =>
      let deadline := q.timeout.map fun t => clock + t.nanoseconds
      let start := startingState inside env clock deadline
      let runner := Runner.ofFuel depthAllowed
      let (ended, s) : Except Interrupt Ended × State :=
        if start.isLate then (.error .outOfTime, start)
        else (runner.launch explainRefusal (argv.map octets)).run.run start
      let (rest, s) := (runner.settle 0).run.run s
      let after := s.files.seenFrom files.workingDirectory
      let late := match ended, rest with
        | .error .outOfTime, _ | _, .error _ => true
        | _, _ => false
      let exit := match ended with
        | .ok e => exitOf e
        | .error (.killed signal) => exitOf (.killed signal)
        | .error _ => .timedOut
      let finish := if late then deadline.getD s.clock else s.clock
      (.ok ⟨if late then .timedOut else exit, logState after q.logPath, s.gatheredBytes 0,
        ⟨finish - clock⟩⟩, after, finish)

def executor (inherited : Environment) : Executor Nat where
  run := perform inherited
  elapsed := fun clock => ⟨clock⟩

end Retrial.Shell
