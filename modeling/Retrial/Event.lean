import Retrial.Classification
import Retrial.Invocation
import Retrial.Policy

/-!
# Events of a supervised run

Every step of a run is reported as it is taken.
-/

set_option autoImplicit false

namespace Retrial

inductive RerunReason
  | crashed (reason : CrashReason)
  | executableFailed (code : Int)
  deriving DecidableEq, Repr

inductive Event
  | started (invocation : Invocation) (policy : Policy)
  | existingLogParsed (path : String) (log : TestLog) (classification : Classification)
  | attemptStarted (request : Request)
  | attemptFinished (request : Request) (outcome : Outcome) (classification : Classification)
  | wholeRerunScheduled (reason : RerunReason) (rerunsLeft : Nat)
  | recovered (testCase : TestCase) (reruns : Nat)
  | confirmed (testCase : TestCase) (reruns : Nat)
  | finished (verdict : Verdict) (confirmed recovered : List TestCase) (attempts : Nat)
      (elapsed : Duration)
  deriving DecidableEq, Repr

end Retrial
