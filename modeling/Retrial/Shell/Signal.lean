import Retrial.Shell.Stream

/-!
# Signals

Signals that a child sends or gets, by name and by number, what a shell says of a
program that one of them has ended, and which of them leave a process alive.
-/

set_option autoImplicit false

namespace Retrial.Shell

def lastSignal : Nat := 64

def standardSignals : List (Nat × String) :=
  [(0, "EXIT"), (1, "HUP"), (2, "INT"), (3, "QUIT"), (4, "ILL"), (5, "TRAP"), (6, "ABRT"), (7, "BUS"),
    (8, "FPE"), (9, "KILL"), (10, "USR1"), (11, "SEGV"), (12, "USR2"), (13, "PIPE"), (14, "ALRM"),
    (15, "TERM"), (16, "16"), (17, "CHLD"), (18, "CONT"), (19, "STOP"), (20, "TSTP"), (21, "TTIN"),
    (22, "TTOU"), (23, "URG"), (24, "XCPU"), (25, "XFSZ"), (26, "VTALRM"), (27, "PROF"), (28, "WINCH"),
    (29, "IO"), (30, "PWR"), (31, "SYS"), (32, "32"), (33, "33"), (34, "RTMIN"), (64, "RTMAX")]

def signalName (n : Nat) : String :=
  match standardSignals.lookup n with
  | some name => name
  | none => if n < 50 then "RTMIN+" ++ toString (n - 34) else "RTMAX-" ++ toString (64 - n)

def isDigits (text : String) : Bool := !text.isEmpty && text.toList.all Char.isDigit

def signal? (least : Nat) (word : String) : Option Nat :=
  if isDigits word then
    match word.toNat? with
    | some n => if n ≤ lastSignal then some n else none
    | none => none
  else
    ((List.range (lastSignal + 1)).drop least).find? fun n =>
      (signalName n).toLower == word.toLower

def signalDescription (signal : Nat) : String :=
  let known : List (Nat × String) :=
    [(1, "Hangup"), (2, "Interrupt"), (3, "Quit"), (4, "Illegal instruction"), (5, "Trace/breakpoint trap"),
      (6, "Aborted"), (7, "Bus error"), (8, "Floating point exception"), (9, "Killed"),
      (10, "User defined signal 1"), (11, "Segmentation fault"), (12, "User defined signal 2"),
      (13, "Broken pipe"), (14, "Alarm clock"), (15, "Terminated"), (16, "Stack fault"), (17, "Child exited"),
      (18, "Continued"), (19, "Stopped (signal)"), (20, "Stopped"), (21, "Stopped (tty input)"),
      (22, "Stopped (tty output)"), (23, "Urgent I/O condition"), (24, "CPU time limit exceeded"),
      (25, "File size limit exceeded"), (26, "Virtual timer expired"), (27, "Profiling timer expired"),
      (28, "Window changed"), (29, "I/O possible"), (30, "Power failure"), (31, "Bad system call")]
  match known.lookup signal with
  | some text => text
  | none =>
    if 34 ≤ signal then "Real-time signal " ++ toString (signal - 34)
    else "Unknown signal " ++ toString signal

/-- Takes the status of a program that a signal ended, and says so. Two signals
are passed over in silence. -/
def reportDeath (signal : Nat) : Eval Unit := do
  unless signal == 2 || signal == 13 do complain (signalDescription signal ++ "\n")
  setStatus (128 + signal)

def takeEnding : Ended → Eval Unit
  | .exited status => setStatus status
  | .killed signal => reportDeath signal

def isHarmless (signal : Nat) : Bool := [0, 17, 18, 23, 28].contains signal

def isStopping (signal : Nat) : Bool := [19, 20, 21, 22].contains signal

def isUnstoppable (signal : Nat) : Bool := signal == 9 || signal == 19

end Retrial.Shell
