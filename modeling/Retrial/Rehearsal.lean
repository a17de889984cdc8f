import Retrial.Supervision

/-!
# Rehearsals

Stand-ins for a test binary that follow a script. One kind lists what each
attempt comes to; the other lists test functions with the outcomes that their
runs have one after the other, and makes up the log that such a binary would
write. In both, what stands last is repeated.
-/

set_option autoImplicit false

namespace Retrial.Rehearsal

open Retrial.Text

inductive Failure
  | spawn
  | wait
  | kill
  | emptyCommand
  deriving DecidableEq, Repr

inductive LogScript
  | notExpected
  | missing
  | text (xml : String)
  | load (entry : Option Entry)
  deriving DecidableEq, Repr

structure ScriptedAttempt where
  exit : Exit
  log : LogScript
  output : Bytes
  duration : Duration
  failure : Option Failure
  deriving DecidableEq, Repr

def Failure.fault (f : Failure) (q : Request) : ExecuteFault :=
  let command := String.intercalate " " q.args
  match f with
  | .spawn => .spawn command (.other "scripted")
  | .wait => .wait command (.other "scripted")
  | .kill => .kill command (.other "scripted")
  | .emptyCommand => .emptyCommand q.attempt

def LogScript.play (script : LogScript) (path : Option String) (files : Files) : LogState × Files :=
  match script with
  | .notExpected => (.notExpected, files)
  | .missing => (.missing, files)
  | .text xml =>
    match Log.readString xml with
    | .ok log => (.parsed log, files)
    | .error fault => (.unreadable fault, files)
  | .load entry =>
    match path with
    | none => (.notExpected, files)
    | some path =>
      let files := match entry with
        | some entry => files.plant path entry
        | none => files
      (.load files path, files)

def ScriptedAttempt.play (a : ScriptedAttempt) (q : Request) (files : Files) :
    Except ExecuteFault Outcome × Files :=
  match a.failure with
  | some failure => (.error (failure.fault q), files)
  | none =>
    let (log, files) := a.log.play q.logPath files
    (.ok ⟨a.exit, log, a.output, a.duration⟩, files)

/-- A script without an entry cannot wait for its process. -/
def attempts (elapsed : Duration) : Executor (List ScriptedAttempt) where
  elapsed := fun _ => elapsed
  run := fun q files script =>
    match script with
    | [] => (.error (Failure.wait.fault q), files, [])
    | [a] => ((a.play q files).1, (a.play q files).2, [a])
    | a :: rest => ((a.play q files).1, (a.play q files).2, rest)

structure ScriptedCase where
  function : String
  tag : Option String
  outcomes : List String
  deriving DecidableEq, Repr

def ScriptedCase.next (c : ScriptedCase) : String × ScriptedCase :=
  match c.outcomes with
  | [] => ("pass", c)
  | [o] => (o, c)
  | o :: rest => (o, { c with outcomes := rest })

/-- A selected function runs all its rows, unless one row is selected. -/
def ScriptedCase.isSelected (c : ScriptedCase) : AttemptKind → Bool
  | .fullRun => true
  | .rerun testCase _ =>
    c.function == testCase.function && (testCase.tag.isNone || c.tag == testCase.tag)

structure Performance where
  functions : List Log.FunctionResult
  output : List Char
  deriving DecidableEq, Repr

def fatalMessage : Log.Message := ⟨"qfatal", none, "scripted fatal message"⟩

def addOutcome (functions : List Log.FunctionResult) (c : ScriptedCase) (outcome : String) :
    List Log.FunctionResult :=
  let incident : Log.Incident := ⟨.ofType outcome, c.tag, none, none, none⟩
  let messages := if outcome == "qfatal" then [fatalMessage] else []
  match functions.reverse with
  | last :: before =>
    if last.name == c.function then
      before.reverse ++ [{ last with
        incidents := last.incidents ++ [incident]
        messages := last.messages ++ messages }]
    else functions ++ [⟨c.function, [incident], messages, none⟩]
  | [] => [⟨c.function, [incident], messages, none⟩]

/-- Runs the cases in order until one crashes. Gives the performance, whether it
came to its end, and the cases as the next attempt finds them. -/
def perform (kind : AttemptKind) (p : Performance) :
    List ScriptedCase → Performance × Bool × List ScriptedCase
  | [] => (p, true, [])
  | c :: rest =>
    if c.isSelected kind then
      let (outcome, c') := c.next
      let output := p.output ++ (outcome ++ ": " ++ c.function ++ "\n").toList
      if outcome == "crash" then (⟨p.functions, output⟩, false, c' :: rest)
      else
        let (q, completed, rest) := perform kind ⟨addOutcome p.functions c outcome, output⟩ rest
        (q, completed, c' :: rest)
    else
      let (q, completed, rest) := perform kind p rest
      (q, completed, c :: rest)

def functions (elapsed : Duration) : Executor (List ScriptedCase) where
  elapsed := fun _ => elapsed
  run := fun q files cases =>
    let (p, completed, cases) := perform q.kind ⟨[], []⟩ cases
    let duration := Duration.ofMilliseconds 5
    if completed then
      let log : TestLog := ⟨some "tst_scripted", p.functions⟩
      let state : LogState := if q.logPath.isSome then .parsed log else .notExpected
      (.ok ⟨.exited log.failures.length, state, encode p.output, duration⟩, files, cases)
    else (.ok ⟨.abnormal none (some 11), .missing, encode p.output, duration⟩, files, cases)

end Retrial.Rehearsal
