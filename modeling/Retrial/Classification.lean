import Retrial.Attempt

/-!
# Classification of attempts

What an attempt shows, from how its process ended and what is in its log. The
first row that fits decides:

* a timeout or an abnormal end is a crash, whatever the log holds;
* without a log the exit code alone decides;
* a log that is missing, unreadable or empty is a crash;
* so is a fatal message, and an exit code that contradicts the failures;
* so is a failing function that cannot be rerun on its own, and this crash is final;
* otherwise the failing test cases count, and where there is none the attempt passed.
-/

set_option autoImplicit false

namespace Retrial

inductive CrashReason
  | timedOut
  | abnormalExit (code signal : Option Int)
  | missingLog
  | unreadableLog (message : String)
  | emptyLog
  | fatalMessage (function message : String)
  | exitCodeMismatch (code : Int) (failures : Nat)
  | noRerunFailure (function : String)
  deriving DecidableEq, Repr

namespace CrashReason

def allowsRerun : CrashReason → Bool
  | .noRerunFailure _ => false
  | _ => true

def text : CrashReason → String
  | .timedOut => "the test process timed out"
  | .abnormalExit _ (some signal) => "the test process was killed by signal " ++ toString signal
  | .abnormalExit (some code) none =>
    "the test process exited abnormally with code " ++ toString code
  | .abnormalExit none none => "the test process exited abnormally"
  | .missingLog => "no XML log was written"
  | .unreadableLog message => "the XML log is unreadable: " ++ message
  | .emptyLog => "the XML log contains no test functions"
  | .fatalMessage function message => function ++ " logged a fatal message: " ++ message
  | .exitCodeMismatch code failures =>
    "exit code " ++ toString code ++ " does not match the " ++ toString failures ++
      " failures in the XML log"
  | .noRerunFailure function => function ++ " failed and cannot be rerun on its own"

end CrashReason

inductive Classification
  | passed
  | functionsFailed (failures : List TestCase)
  | executableFailed (code : Int)
  | crashed (reason : CrashReason)
  deriving DecidableEq, Repr

def classifyLog (noRerun : List String) (code : Int) (log : TestLog) : Classification :=
  if log.isEmpty then .crashed .emptyLog
  else
    match log.fatalMessages with
    | (function, message) :: _ => .crashed (.fatalMessage function.name message.description)
    | [] =>
      let failures := log.failures
      if (code == 0) != failures.isEmpty then
        .crashed (.exitCodeMismatch code failures.length)
      else
        match failures.find? fun c => noRerun.contains c.function with
        | some c => .crashed (.noRerunFailure c.function)
        | none => if failures.isEmpty then .passed else .functionsFailed failures

def classify (noRerun : List String) : Exit → LogState → Classification
  | .timedOut, _ => .crashed .timedOut
  | .abnormal code signal, _ => .crashed (.abnormalExit code signal)
  | .exited code, .notExpected => if code == 0 then .passed else .executableFailed code
  | .exited _, .missing => .crashed .missingLog
  | .exited _, .unreadable fault => .crashed (.unreadableLog fault.fullMessage)
  | .exited code, .parsed log => classifyLog noRerun code log

end Retrial
