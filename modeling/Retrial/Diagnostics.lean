import Retrial.Diagnostics.Description
import Retrial.Event
import Retrial.Text.Quoted

/-!
# Diagnostics

Short lines beside the transcript: notes on what a run does next and why, and
the error that stopped it. A note has a severity, which its heading shows, and
an origin, by which notes can be told apart and filtered.
-/

set_option autoImplicit false

namespace Retrial.Diagnostics

inductive Severity
  | error
  | warning
  | info
  | debug
  | trace
  deriving DecidableEq, Repr

namespace Severity

def heading : Severity → String
  | .error => "error"
  | .warning => "warning"
  | .info => "info"
  | .debug => "debug"
  | .trace => "trace"

def sequence : Severity → String
  | .error => "\x1b[31;1m"
  | .warning => "\x1b[33;1m"
  | .info => "\x1b[1m"
  | .debug => "\x1b[1m"
  | .trace => "\x1b[2m"

def rank : Severity → Nat
  | .error => 1
  | .warning => 2
  | .info => 3
  | .debug => 4
  | .trace => 5

end Severity

structure Note where
  severity : Severity
  origin : String
  headed : Bool
  message : String
  fields : List (String × String)
  deriving DecidableEq, Repr

def engineOrigin : String := "qtest_supervisor::retry::engine"

def processOrigin : String := "qtest_supervisor::runner::process"

def configOrigin : String := "qtest_supervisor::config"

def profileOrigin : String := "qt_testrunner::dispatch"

def errorOrigin : String := "qt_testrunner::errors"

def causeOrigin : String := "qt_testrunner::no_heading"

def onRun (severity : Severity) (message : String) : Note :=
  ⟨severity, engineOrigin, true, message, []⟩

/-- A crash that no whole rerun follows is noted with what stands in the way. -/
def crashNote (reason : CrashReason) : Note :=
  onRun .warning
    ((if reason.allowsRerun then "crash reruns exhausted: " else "crash is not recoverable: ") ++
      reason.text)

def attemptField (q : Request) : String × String := ("attempt", toString q.attempt)

def timeoutNote (q : Request) (timeout : Duration) : Note :=
  ⟨.warning, processOrigin, true,
    "attempt exceeded its timeout of " ++ timeout.text ++ ", killing it",
    [attemptField q]⟩

def layerNote (file : String) : Note :=
  ⟨.debug, configOrigin, true, "layering config from " ++ file, []⟩

def profileNote (p : Profile) : Note :=
  ⟨.debug, profileOrigin, true, "using profile " ++ p.name ++ ": " ++ describeProfile p, []⟩

def spawnNote (q : Request) : Note :=
  ⟨.debug, processOrigin, true, "spawning " ++ Text.commandLine q.args, [attemptField q]⟩

def endNote (q : Request) (outcome : Outcome) : Note :=
  ⟨.debug, processOrigin, true, "attempt finished",
    [attemptField q, ("exit", describeExit outcome.exit),
      ("duration", describeDuration outcome.duration)]⟩

def judgementNote (q : Request) (c : Classification) : Note :=
  ⟨.debug, engineOrigin, true, "classified as " ++ describeClassification c, [attemptField q]⟩

def existingLogNote (path : String) (c : Classification) : Note :=
  onRun .debug ("existing log " ++ path ++ " classified as " ++ describeClassification c)

def isWholeRerun : Event → Bool
  | .wholeRerunScheduled _ _ => true
  | _ => false

def classificationNotes (c : Classification) (later : List Event) : List Note :=
  match c with
  | .crashed reason => if (later.head?.map isWholeRerun).getD false then [] else [crashNote reason]
  | _ => []

def timeoutNotes (q : Request) (outcome : Outcome) : List Note :=
  match outcome.exit, q.timeout with
  | .timedOut, some timeout => [timeoutNote q timeout]
  | _, _ => []

def notes : List Event → List Note
  | [] => []
  | e :: later =>
    (match e with
      | .existingLogParsed path _ c => existingLogNote path c :: classificationNotes c later
      | .attemptStarted q => [spawnNote q]
      | .attemptFinished q outcome c =>
        timeoutNotes q outcome ++ [endNote q outcome, judgementNote q c] ++
          classificationNotes c later
      | .wholeRerunScheduled (.crashed reason) _ =>
        [onRun .info ("rerunning the whole test binary after a crash: " ++ reason.text)]
      | .wholeRerunScheduled (.executableFailed code) _ =>
        [onRun .info ("test binary exited with code " ++ toString code ++ ", rerunning it once")]
      | .recovered c reruns => [onRun .info (c.text ++ " passed on rerun " ++ toString reruns)]
      | .confirmed c reruns =>
        [onRun .warning (c.text ++ " failed " ++ toString reruns ++ " reruns, failure confirmed")]
      | _ => []) ++ notes later

def hexDigit (n : Nat) : Char := "0123456789abcdef".toList.getD n '0'

/-- A message is shown without the characters that could steer a terminal. -/
def visible (c : Char) : List Char :=
  let n := c.toNat
  if [0x07, 0x08, 0x0c, 0x1b, 0x7f].contains n then
    ['\\', 'x', hexDigit (n / 16), hexDigit (n % 16)]
  else if 0x80 ≤ n && n ≤ 0x9f then
    ['\\', 'u', '\x7b', hexDigit (n / 16), hexDigit (n % 16), '\x7d']
  else [c]

def visibleText (text : String) : String := String.ofList (text.toList.flatMap visible)

def heading (colored : Bool) (s : Severity) : String :=
  (if colored then s.sequence ++ s.heading ++ "\x1b[0m" else s.heading) ++ ": "

def Note.line (colored : Bool) (n : Note) : String :=
  (if n.headed then heading colored n.severity else "") ++ visibleText n.message ++
    String.join (n.fields.map fun f => " " ++ f.1 ++ "=" ++ f.2) ++ "\n"

end Retrial.Diagnostics
