import Retrial.Decision
import Retrial.LogNames

/-!
# Supervision

A test binary is run, its failing test cases are rerun and crashes are met with
whole reruns, until a verdict is reached. What runs an attempt is a parameter,
with a memory of its own; so is the listener, which hears every event and may
refuse one. A refusal, and an attempt that could not be run, end the run on the
spot: no event is reported after it and nothing more is run.
-/

set_option autoImplicit false

namespace Retrial

/-- A way to run attempts. It may change files and remembers what it likes. -/
structure Executor (Memory : Type) where
  run : Request → Files → Memory → Except ExecuteFault Outcome × Files × Memory
  /-- The time that has passed since supervision began. -/
  elapsed : Memory → Duration

/-- Hears an event and its place among all events. A fault refuses the event. -/
abbrev Listener := Nat → Event → Option IoFault

def Listener.willing : Listener := fun _ _ => none

inductive SupervisionFault
  | policy (fault : PolicyFault)
  | createLogDir (directory : String) (fault : IoFault)
  | removeStaleLog (path : String) (fault : IoFault)
  | existingLog (fault : Log.Fault)
  | execute (fault : ExecuteFault)
  | writeEvent (fault : IoFault)
  deriving DecidableEq, Repr

namespace SupervisionFault

def message : SupervisionFault → String
  | .policy _ => "invalid retry policy"
  | .createLogDir directory _ => "failed to create log directory `" ++ directory ++ "`"
  | .removeStaleLog path _ => "failed to remove stale log file `" ++ path ++ "`"
  | .existingLog _ => "failed to read existing test log"
  | .execute _ => "error running test binary"
  | .writeEvent _ => "error reporting supervisor event"

def causes : SupervisionFault → List String
  | .policy fault => [fault.message]
  | .createLogDir _ fault => [fault.message]
  | .removeStaleLog _ fault => [fault.message]
  | .existingLog fault => fault.chain
  | .execute fault => fault.chain
  | .writeEvent fault => ["error writing to output", fault.message]

def fullMessage (f : SupervisionFault) : String := String.intercalate ": " (f.message :: f.causes)

end SupervisionFault

structure Setup where
  invocation : Invocation
  policy : Policy
  logDir : String
  naming : LogNaming
  timeout : Option Duration
  env : Environment
  cwd : Option String
  existingLog : Option String
  deriving DecidableEq, Repr

structure Summary where
  verdict : Verdict
  attempts : Nat
  fullRuns : Nat
  confirmed : List TestCase
  recovered : List TestCase
  elapsed : Duration
  deriving DecidableEq, Repr

inductive Ending
  | summary (s : Summary)
  | fault (f : SupervisionFault)
  deriving DecidableEq, Repr

structure Run where
  events : List Event
  requests : List Request
  ending : Ending
  files : Files
  deriving DecidableEq, Repr

namespace Run

def failed (f : SupervisionFault) (files : Files) : Run := ⟨[], [], .fault f, files⟩

def heard (es : List Event) (r : Run) : Run := { r with events := es ++ r.events }

def carriedOut (request : Request) (r : Run) : Run := { r with requests := request :: r.requests }

@[simp] theorem heard_events (es : List Event) (r : Run) :
    (r.heard es).events = es ++ r.events := rfl

@[simp] theorem heard_requests (es : List Event) (r : Run) :
    (r.heard es).requests = r.requests := rfl

@[simp] theorem heard_ending (es : List Event) (r : Run) : (r.heard es).ending = r.ending := rfl

@[simp] theorem heard_files (es : List Event) (r : Run) : (r.heard es).files = r.files := rfl

@[simp] theorem carriedOut_events (q : Request) (r : Run) :
    (r.carriedOut q).events = r.events := rfl

@[simp] theorem carriedOut_requests (q : Request) (r : Run) :
    (r.carriedOut q).requests = q :: r.requests := rfl

@[simp] theorem carriedOut_ending (q : Request) (r : Run) :
    (r.carriedOut q).ending = r.ending := rfl

@[simp] theorem carriedOut_files (q : Request) (r : Run) : (r.carriedOut q).files = r.files := rfl

end Run

namespace Setup

/-- Logs are written in the directory that the child is started in, unless
their directory is absolute. -/
def logDirectory (s : Setup) : String :=
  match s.cwd with
  | some cwd => if Path.isAbsolute s.logDir then s.logDir else Path.join cwd s.logDir
  | none => s.logDir

def namer? (s : Setup) : Option LogNamer :=
  s.invocation.logBaseName.map fun name => ⟨s.logDirectory, name, s.naming⟩

def request (s : Setup) (attempt : Nat) (kind : AttemptKind) : Request where
  attempt := attempt
  kind := kind
  args := s.invocation.args ⟨s.namer?.map (·.path attempt), kind.verbose, kind.selection⟩
  env := Invocation.env s.env kind.verbose
  cwd := s.cwd
  logPath := s.namer?.map (·.path attempt)
  timeout := s.timeout

def prepare (s : Setup) (attempt : Nat) (files : Files) : Except SupervisionFault Files :=
  match s.namer? with
  | none => .ok files
  | some namer => (namer.prepare attempt files).mapError (.removeStaleLog (namer.path attempt))

def makeLogDirectory (s : Setup) (files : Files) : Except SupervisionFault Files :=
  if s.invocation.wantsLog then
    (files.createDirectories s.logDirectory).mapError (.createLogDir s.logDirectory)
  else .ok files

def classify (s : Setup) (exit : Exit) (log : LogState) : Classification :=
  Retrial.classify s.policy.noRerun exit log

/-- A log that stands for a first attempt. A test binary returns the number of
its failures, up to the largest code that a normal exit can have. -/
def classifyExisting (s : Setup) (log : TestLog) : Classification :=
  s.classify (.exited (min log.failures.length 127)) (.parsed log)

end Setup

structure Tally where
  attempts : Nat
  fullRuns : Nat
  events : Nat
  deriving DecidableEq, Repr

def publish (listen : Listener) (count : Nat) : List Event → List Event × Option IoFault
  | [] => ([], none)
  | e :: es =>
    match listen count e with
    | some fault => ([], some fault)
    | none =>
      let (heard, refusal) := publish listen (count + 1) es
      (e :: heard, refusal)

inductive AttemptResult (Memory : Type)
  | stopped (run : Run)
  | done (events : List Event) (request : Request) (classification : Classification)
      (files : Files) (memory : Memory)

variable {Memory : Type}

def attemptOnce (s : Setup) (x : Executor Memory) (listen : Listener) (t : Tally)
    (kind : AttemptKind) (files : Files) (memory : Memory) : AttemptResult Memory :=
  match s.prepare (t.attempts + 1) files with
  | .error fault => .stopped (.failed fault files)
  | .ok files =>
    let request := s.request (t.attempts + 1) kind
    match listen t.events (.attemptStarted request) with
    | some fault => .stopped (.failed (.writeEvent fault) files)
    | none =>
      match x.run request files memory with
      | (.error fault, files, _) =>
        .stopped (((Run.failed (.execute fault) files).carriedOut request).heard
          [.attemptStarted request])
      | (.ok outcome, files, memory) =>
        let c := s.classify outcome.exit outcome.log
        match listen (t.events + 1) (.attemptFinished request outcome c) with
        | some fault =>
          .stopped (((Run.failed (.writeEvent fault) files).carriedOut request).heard
            [.attemptStarted request])
        | none =>
          .done [.attemptStarted request, .attemptFinished request outcome c] request c files memory

def conclude (x : Executor Memory) (listen : Listener) (t : Tally) (l : Ledger) (v : Verdict)
    (files : Files) (memory : Memory) : Run :=
  let elapsed := x.elapsed memory
  let e := Event.finished v l.confirmed l.recovered t.attempts elapsed
  match listen t.events e with
  | some fault => .failed (.writeEvent fault) files
  | none => ⟨[e], [], .summary ⟨v, t.attempts, t.fullRuns, l.confirmed, l.recovered, elapsed⟩, files⟩

def Tally.after (t : Tally) (step : Step) (events : Nat) : Tally :=
  ⟨t.attempts + 1, t.fullRuns + (if step = .fullRun then 1 else 0), t.events + events⟩

/-- Runs what is next, and what is decided after that, to the end. -/
def proceed (s : Setup) (x : Executor Memory) (listen : Listener) (t : Tally) (l : Ledger)
    (n : Next) (files : Files) (memory : Memory) : Run :=
  match n with
  | .stop v => conclude x listen t l v files memory
  | .attempt step =>
    match attemptOnce s x listen t step.kind files memory with
    | .stopped run => run
    | .done events request c files memory =>
      let d := Decision.after l step c
      let (heard, refusal) := publish listen (t.events + 2) d.events
      match refusal with
      | some fault =>
        ((Run.failed (.writeEvent fault) files).carriedOut request).heard (events ++ heard)
      | none =>
        ((proceed s x listen (t.after step (2 + d.events.length)) d.ledger d.next files
          memory).carriedOut request).heard (events ++ heard)
  termination_by weight l n
  decreasing_by exact Decision.after_lighter l step c

def begin (s : Setup) (x : Executor Memory) (listen : Listener) (files : Files)
    (memory : Memory) : Run :=
  let l := Ledger.start s.policy
  match s.existingLog with
  | none => proceed s x listen ⟨0, 0, 1⟩ l (.attempt .fullRun) files memory
  | some path =>
    match Log.load files path with
    | .error fault => .failed (.existingLog fault) files
    | .ok log =>
      let c := s.classifyExisting log
      let d := Decision.afterFullRun l c
      let (heard, refusal) := publish listen 1 (.existingLogParsed path log c :: d.events)
      match refusal with
      | some fault => (Run.failed (.writeEvent fault) files).heard heard
      | none =>
        (proceed s x listen ⟨0, 0, 2 + d.events.length⟩ d.ledger d.next files memory).heard heard

/-- Supervises a test binary. A policy that contradicts itself is refused before anything is done. -/
def supervise (s : Setup) (x : Executor Memory) (listen : Listener) (files : Files)
    (memory : Memory) : Run :=
  match s.policy.fault? with
  | some fault => .failed (.policy fault) files
  | none =>
    match s.makeLogDirectory files with
    | .error fault => .failed fault files
    | .ok files =>
      let started := Event.started s.invocation s.policy
      match listen 0 started with
      | some fault => .failed (.writeEvent fault) files
      | none => (begin s x listen files memory).heard [started]

end Retrial
