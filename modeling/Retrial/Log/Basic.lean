import Retrial.Duration

/-!
# Test logs

What one run of a test binary reports: its test functions in the order in which
they ran, each with incidents (the outcomes, one for each data row) and messages.
A test case is a function together with a data tag; it fails when an incident of
a failing kind bears its name.
-/

set_option autoImplicit false

namespace Retrial

structure TestCase where
  function : String
  tag : Option String
  deriving DecidableEq, Repr

def TestCase.text (c : TestCase) : String :=
  match c.tag with
  | none => c.function
  | some tag => c.function ++ ":" ++ tag

namespace Log

inductive IncidentKind
  | pass
  | fail
  | expectedFail
  | unexpectedPass
  | skip
  | blacklistedPass
  | blacklistedFail
  | blacklistedUnexpectedPass
  | blacklistedExpectedFail
  | other (type : String)
  deriving DecidableEq, Repr

namespace IncidentKind

def ofType (type : String) : IncidentKind :=
  if type == "pass" then .pass
  else if type == "fail" then .fail
  else if type == "xfail" then .expectedFail
  else if type == "xpass" then .unexpectedPass
  else if type == "skip" then .skip
  else if type == "bpass" then .blacklistedPass
  else if type == "bfail" then .blacklistedFail
  else if type == "bxpass" then .blacklistedUnexpectedPass
  else if type == "bxfail" then .blacklistedExpectedFail
  else .other type

def type : IncidentKind → String
  | .pass => "pass"
  | .fail => "fail"
  | .expectedFail => "xfail"
  | .unexpectedPass => "xpass"
  | .skip => "skip"
  | .blacklistedPass => "bpass"
  | .blacklistedFail => "bfail"
  | .blacklistedUnexpectedPass => "bxpass"
  | .blacklistedExpectedFail => "bxfail"
  | .other type => type

/-- An unexpected pass fails its function; being blacklisted excuses nothing. -/
def isFailure : IncidentKind → Bool
  | .fail | .unexpectedPass | .blacklistedFail | .blacklistedUnexpectedPass => true
  | _ => false

def isOther : IncidentKind → Bool
  | .other _ => true
  | _ => false

end IncidentKind

inductive Severity
  | info
  | warning
  | fatal
  deriving DecidableEq, Repr

def Severity.ofType (type : String) : Severity :=
  if ["qfatal", "fatal"].contains type then .fatal
  else if ["qwarn", "warn", "warning", "qcritical", "system"].contains type then .warning
  else .info

def Severity.text : Severity → String
  | .info => "info"
  | .warning => "warning"
  | .fatal => "fatal"

structure Message where
  type : String
  tag : Option String
  description : String
  deriving DecidableEq, Repr

def Message.severity (m : Message) : Severity := .ofType m.type

def Message.isFatal (m : Message) : Bool := m.severity == .fatal

structure Incident where
  kind : IncidentKind
  tag : Option String
  description : Option String
  file : Option String
  line : Option Nat
  deriving DecidableEq, Repr

def Incident.isFailure (i : Incident) : Bool := i.kind.isFailure

structure FunctionResult where
  name : String
  incidents : List Incident
  messages : List Message
  duration : Option Duration
  deriving DecidableEq, Repr

def distinct {α : Type} [BEq α] (xs : List α) : List α :=
  xs.foldl (fun seen x => if seen.contains x then seen else seen ++ [x]) []

namespace FunctionResult

def failed (f : FunctionResult) : Bool := f.incidents.any Incident.isFailure

def hasFatal (f : FunctionResult) : Bool := f.messages.any Message.isFatal

def status (f : FunctionResult) : String := if f.failed then "FAIL" else "PASS"

/-- The failing test cases of a function, each once, in the order of their first incidents. -/
def failures (f : FunctionResult) : List TestCase :=
  distinct ((f.incidents.filter Incident.isFailure).map fun i => ⟨f.name, i.tag⟩)

end FunctionResult

end Log

structure TestLog where
  name : Option String
  functions : List Log.FunctionResult
  deriving DecidableEq, Repr

namespace TestLog

open Log

def empty : TestLog := ⟨none, []⟩

def isEmpty (log : TestLog) : Bool := log.functions.isEmpty

def failures (log : TestLog) : List TestCase := log.functions.flatMap FunctionResult.failures

def fatalMessages (log : TestLog) : List (FunctionResult × Message) :=
  log.functions.flatMap fun f => (f.messages.filter Message.isFatal).map fun m => (f, m)

def lookup (log : TestLog) (name : String) : Option (Nat × FunctionResult) :=
  (log.functions.zipIdx.find? fun p => p.1.name == name).map fun p => (p.2, p.1)

end TestLog

end Retrial
