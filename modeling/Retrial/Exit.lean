/-!
# How a process ended

A process that returns a code from 0 to 127 has exited. Anything else, a signal
or a code that a shell uses for one, is abnormal, unless the process was killed
because its time was up.
-/

set_option autoImplicit false

namespace Retrial

inductive Exit
  | exited (code : Int)
  | abnormal (code signal : Option Int)
  | timedOut
  deriving DecidableEq, Repr

namespace Exit

def signalName? (signal : Int) : Option String :=
  [(1, "HUP"), (2, "INT"), (3, "QUIT"), (4, "ILL"), (5, "TRAP"), (6, "ABRT"), (8, "FPE"),
    (9, "KILL"), (11, "SEGV"), (13, "PIPE"), (14, "ALRM"), (15, "TERM")].lookup signal

/-- The code and the signal of a wait status: the low seven bits are a signal,
zero for none, and then the next eight bits are a code. -/
def codeAndSignal (status : Int) : Option Int × Option Int :=
  let low := (status % 128 : Int)
  if low == 0 then (some (status / 256 % 256), none)
  else if low == 127 then (none, none)
  else (none, some low)

def ofStatus (status : Int) : Exit :=
  match codeAndSignal status with
  | (some code, none) =>
    if 0 ≤ code && code < 128 then .exited code else .abnormal (some code) none
  | (code, signal) => .abnormal code signal

def code? : Exit → Option Int
  | .exited code => some code
  | .abnormal code _ => code
  | .timedOut => none

def text : Exit → String
  | .exited code => "Test process exited with code " ++ toString code
  | .abnormal _ (some signal) =>
    "Test process was killed by signal " ++ toString signal ++
      match signalName? signal with
      | some name => " (SIG" ++ name ++ ")"
      | none => ""
  | .abnormal (some code) none => "Test process exited with code " ++ toString code
  | .abnormal none none => "Test process exited with an unknown status"
  | .timedOut => "Test process timed out and was killed"

end Exit

end Retrial
