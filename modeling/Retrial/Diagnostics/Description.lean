import Retrial.Classification
import Retrial.Config.Basic
import Retrial.Text.Literal

/-!
# Descriptions of values

What a value consists of, for notes that help to find an error: the name of its
kind, and its parts by their names. Texts are written as literals and spans of
time in the largest unit of which they hold at least one.
-/

set_option autoImplicit false

namespace Retrial.Diagnostics

open Retrial.Text

def described (kind : String) (parts : List (String × String)) : String :=
  kind ++ " \x7b " ++ String.intercalate ", " (parts.map fun p => p.1 ++ ": " ++ p.2) ++ " \x7d"

def wrapping (kind part : String) : String := kind ++ "(" ++ part ++ ")"

def describeOption {α : Type} (describe : α → String) : Option α → String
  | none => "None"
  | some a => wrapping "Some" (describe a)

def decimalText (whole fraction width : Nat) : String :=
  let ds := Nat.toDigits 10 fraction
  let ds := List.replicate (width - ds.length) '0' ++ ds
  match (ds.reverse.dropWhile (· == '0')).reverse with
  | [] => toString whole
  | ds => toString whole ++ "." ++ String.ofList ds

def describeDuration (d : Duration) : String :=
  let n := d.nanoseconds
  if 1000000000 ≤ n then decimalText (n / 1000000000) (n % 1000000000) 9 ++ "s"
  else if 1000000 ≤ n then decimalText (n / 1000000) (n % 1000000) 6 ++ "ms"
  else if 1000 ≤ n then decimalText (n / 1000) (n % 1000) 3 ++ "µs"
  else toString n ++ "ns"

def describeExit : Exit → String
  | .exited code => wrapping "Exited" (toString code)
  | .abnormal code signal =>
    described "Abnormal"
      [("code", describeOption toString code), ("signal", describeOption toString signal)]
  | .timedOut => "TimedOut"

def describeCase (c : TestCase) : String :=
  described "TestCaseId"
    [("function", literal c.function), ("data_tag", describeOption literal c.tag)]

def describeReason : CrashReason → String
  | .timedOut => "TimedOut"
  | .abnormalExit code signal =>
    described "AbnormalExit"
      [("code", describeOption toString code), ("signal", describeOption toString signal)]
  | .missingLog => "MissingLog"
  | .unreadableLog message => described "UnreadableLog" [("message", literal message)]
  | .emptyLog => "EmptyLog"
  | .fatalMessage function message =>
    described "FatalMessage" [("function", literal function), ("message", literal message)]
  | .exitCodeMismatch code failures =>
    described "ExitCodeMismatch" [("code", toString code), ("failures", toString failures)]
  | .noRerunFailure function => described "NoRerunFailure" [("function", literal function)]

def describeClassification : Classification → String
  | .passed => "Passed"
  | .functionsFailed failures =>
    wrapping "FunctionsFailed" (listing (failures.map describeCase))
  | .executableFailed code => described "ExecutableFailed" [("code", toString code)]
  | .crashed reason => wrapping "Crashed" (describeReason reason)

def describeProfile (p : Profile) : String :=
  described "SupervisorProfile"
    [("name", literal p.name),
      ("max_repeats", toString p.policy.maxRepeats),
      ("passes_needed", toString p.policy.passesNeeded),
      ("crash_reruns", toString p.policy.crashReruns),
      ("timeout", describeOption describeDuration p.timeout),
      ("no_rerun_functions", listing (p.policy.noRerun.map literal))]

end Retrial.Diagnostics
