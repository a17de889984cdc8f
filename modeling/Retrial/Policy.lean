/-!
# Retry policies and verdicts

How often a failing test case is run again, how many of these reruns must pass,
and how often the whole binary is run again after a crash. Functions that set up
or clean up cannot be rerun on their own.
-/

set_option autoImplicit false

namespace Retrial

structure Policy where
  maxRepeats : Nat
  passesNeeded : Nat
  crashReruns : Nat
  noRerun : List String
  deriving DecidableEq, Repr

inductive PolicyFault
  | noPassNeeded
  | unreachable (passesNeeded maxRepeats : Nat)
  deriving DecidableEq, Repr

def PolicyFault.message : PolicyFault → String
  | .noPassNeeded => "passes-needed must be at least 1"
  | .unreachable passes repeats =>
    "passes-needed (" ++ toString passes ++ ") exceeds max-repeats (" ++ toString repeats ++ ")"

namespace Policy

def setupFunctions : List String := ["cleanup", "cleanupTestCase", "init", "initTestCase"]

def standard : Policy := ⟨5, 1, 1, setupFunctions⟩

/-- The fault of a policy that asks for no pass, or for more than its reruns
can give. Without reruns the passes are never counted. -/
def fault? (p : Policy) : Option PolicyFault :=
  if p.passesNeeded == 0 then some .noPassNeeded
  else if 0 < p.maxRepeats && p.maxRepeats < p.passesNeeded then
    some (.unreachable p.passesNeeded p.maxRepeats)
  else none

/-- The whole reruns allowed to a binary that fails without a log. -/
def executableReruns (p : Policy) : Nat := if 0 < p.maxRepeats then 1 else 0

def insertName (name : String) : List String → List String
  | [] => [name]
  | n :: rest =>
    if name == n then n :: rest
    else if name < n then name :: n :: rest
    else n :: insertName name rest

def noRerunNames (p : Policy) : List String := p.noRerun.foldr insertName []

theorem mem_insertName {a name : String} {names : List String} :
    a ∈ insertName name names ↔ a = name ∨ a ∈ names := by
  induction names with
  | nil => simp [insertName]
  | cons n rest ih =>
    simp only [insertName]
    split
    · next h => rw [beq_iff_eq] at h; subst h; simp
    · split
      · simp
      · simp only [List.mem_cons, ih]; exact or_left_comm

end Policy

inductive Verdict
  | pass
  | fail
  | crash
  | usageError
  deriving DecidableEq, Repr

namespace Verdict

def exitCode : Verdict → Nat
  | .pass => 0
  | .usageError => 1
  | .fail => 2
  | .crash => 3

def text : Verdict → String
  | .pass => "PASS"
  | .fail => "FAIL"
  | .crash => "CRASH"
  | .usageError => "USAGE ERROR"

def name : Verdict → String
  | .pass => "Pass"
  | .fail => "Fail"
  | .crash => "Crash"
  | .usageError => "UsageError"

end Verdict

end Retrial
