import Retrial.Exit
import Retrial.Files.Basic
import Retrial.Log.Reader

/-!
# Attempts

What is asked of one run of the test binary, and what came of it. The log that
a run was asked to write is looked for at the path that the request names.
-/

set_option autoImplicit false

namespace Retrial

/-- Variables in the order in which they were first set. -/
abbrev Environment := List (String × String)

namespace Environment

/-- Gives a variable a value. One that is already set keeps its place. -/
def set (env : Environment) (key value : String) : Environment :=
  if env.any (fun p => p.1 == key) then env.map fun p => if p.1 == key then (key, value) else p
  else env ++ [(key, value)]

def setAll (env : Environment) (overlay : List (String × String)) : Environment :=
  overlay.foldl (fun env p => env.set p.1 p.2) env

def get? (env : Environment) (key : String) : Option String := env.lookup key

end Environment

structure Ticket where
  rerun : Nat
  budget : Nat
  verbose : Bool
  deriving DecidableEq, Repr

inductive AttemptKind
  | fullRun
  | rerun (testCase : TestCase) (ticket : Ticket)
  deriving DecidableEq, Repr

namespace AttemptKind

def verbose : AttemptKind → Bool
  | .fullRun => false
  | .rerun _ ticket => ticket.verbose

def selection : AttemptKind → Option TestCase
  | .fullRun => none
  | .rerun testCase _ => some testCase

end AttemptKind

structure Request where
  attempt : Nat
  kind : AttemptKind
  args : List String
  env : Environment
  cwd : Option String
  logPath : Option String
  timeout : Option Duration
  deriving DecidableEq, Repr

inductive LogState
  | notExpected
  | missing
  | unreadable (fault : Log.Fault)
  | parsed (log : TestLog)
  deriving DecidableEq, Repr

structure Outcome where
  exit : Exit
  log : LogState
  output : Text.Bytes
  duration : Duration
  deriving DecidableEq, Repr

inductive ExecuteFault
  | emptyCommand (attempt : Nat)
  | spawn (command : String) (fault : IoFault)
  | wait (command : String) (fault : IoFault)
  | kill (command : String) (fault : IoFault)
  deriving DecidableEq, Repr

namespace ExecuteFault

def message : ExecuteFault → String
  | .emptyCommand attempt => "attempt " ++ toString attempt ++ " has no command to run"
  | .spawn command _ => "failed to spawn `" ++ command ++ "`"
  | .wait command _ => "failed to wait for `" ++ command ++ "`"
  | .kill command _ => "failed to kill `" ++ command ++ "` after it timed out"

def cause? : ExecuteFault → Option IoFault
  | .emptyCommand _ => none
  | .spawn _ fault => some fault
  | .wait _ fault => some fault
  | .kill _ fault => some fault

def chain (f : ExecuteFault) : List String := f.message :: (f.cause?.map IoFault.message).toList

end ExecuteFault

namespace Log

def load (files : Files) (path : String) : Except Fault TestLog :=
  match files.read path with
  | .error fault => .error ⟨some path, .unreadable fault⟩
  | .ok bytes =>
    match Text.decode bytes with
    | .error fault => .error ⟨some path, .notUtf8 fault⟩
    | .ok text => (read text).mapError (⟨some path, ·⟩)

theorem load_eq_read {files : Files} {path : String} {bytes : Text.Bytes} {text : List Char}
    (hf : files.read path = .ok bytes) (hd : Text.decode bytes = .ok text) :
    load files path = (read text).mapError (⟨some path, ·⟩) := by
  simp only [load, hf, hd]

end Log

/-- What a run left at the path of its log. Only a file that is not there is a
missing log; one that cannot be read is unreadable. -/
def LogState.load (files : Files) (path : String) : LogState :=
  match Log.load files path with
  | .ok log => .parsed log
  | .error fault =>
    if fault.cause == .unreadable .noSuchEntry then .missing else .unreadable fault

def LogState.log? : LogState → Option TestLog
  | .parsed log => some log
  | _ => none

end Retrial
