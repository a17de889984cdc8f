import Retrial.Utility.Answers
import Retrial.Utility.CharSet
import Retrial.Utility.Columns
import Retrial.Utility.Counting
import Retrial.Utility.Editing
import Retrial.Utility.Launch
import Retrial.Utility.Search
import Retrial.Utility.Sequence
import Retrial.Utility.Sorting
import Retrial.Utility.Whole

/-!
# The tools by name

Tools belong to the child's side: a test binary may be a script, and these are the
programs that such scripts run. Nothing that a supervisor decides looks into them.
-/

set_option autoImplicit false

namespace Retrial.Utility

open Retrial.Shell

def plainTool? (name : String) : Option (String → List String → Eval Nat) :=
  match name with
  | "true" => some fun _ _ => return 0
  | "false" => some fun _ _ => return 1
  | "echo" => some echoWords
  | "printf" => some printWords
  | "test" => some answerCondition
  | "[" => some answerBracketed
  | "pwd" => some tellWorkingDirectory
  | "sleep" => some sleep
  | "cat" => some concatenate
  | "head" => some head
  | "tail" => some tail
  | "tee" => some copyInput
  | "yes" => some repeatLine
  | "wc" => some countWords
  | "sort" => some sortLines
  | "uniq" => some showDistinct
  | "cut" => some cutLines
  | "tr" => some replaceChars
  | "grep" => some (searchLines false false)
  | "egrep" => some fun _ args => searchLines true false "grep" args
  | "fgrep" => some fun _ args => searchLines false true "grep" args
  | "sed" => some editLines
  | "seq" => some writeSequence
  | "ls" => some listFiles
  | "basename" => some tellLastName
  | "dirname" => some tellDirectory
  | "mkdir" => some makeDirectories
  | "rmdir" => some removeDirectories
  | "rm" => some removeEntries
  | "cp" => some copyFiles
  | "mv" => some moveFiles
  | "ln" => some makeLinks
  | "chmod" => some changeModes
  | "touch" => some touchFiles
  | "printenv" => some showVariables
  | _ => none

def startingTool? (name : String) : Option (Launcher → String → List String → Eval Ended) :=
  match name with
  | "env" => some runWithVariables
  | "timeout" => some runForTime
  | _ => none

def tool? (name : String) : Option Tool :=
  match plainTool? name, startingTool? name with
  | some run, _ => some (.plain run)
  | none, some run => some (.starting run)
  | none, none => none

end Retrial.Utility
