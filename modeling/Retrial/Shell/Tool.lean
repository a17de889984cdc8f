import Retrial.Shell.Stream

/-!
# Tools

The programs of a system that a child may run besides scripts. Most work on their
arguments, their streams and the files alone, and end with a status; some start
other programs, for which the shell lends them a launcher.
-/

set_option autoImplicit false

namespace Retrial.Shell

abbrev Launcher := (String → IoFault → Eval Nat) → List String → Eval Ended

inductive Tool
  | plain (run : String → List String → Eval Nat)
  | starting (run : Launcher → String → List String → Eval Ended)

end Retrial.Shell
