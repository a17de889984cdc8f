import Retrial.Attempt
import Retrial.Command.Artifact

/-!
# Invocations

A command that is ready to be run as often as needed. Each attempt gets the
command's own arguments, then those that ask for a log, those that make the run
verbose, and the test case it is restricted to.
-/

set_option autoImplicit false

namespace Retrial

structure Invocation where
  command : Command
  /-- The name that logs are given, absent when no log is asked for. -/
  logBaseName : Option String
  deriving DecidableEq, Repr

structure Additions where
  logFile : Option String
  verbose : Bool
  selection : Option TestCase
  deriving DecidableEq, Repr

namespace Invocation

def build (command : Command) (wantsLog : Bool) (rules : List ArtifactRule) :
    Except InvocationFault Invocation :=
  if wantsLog then (ArtifactRule.resolve rules command).map fun name => ⟨command, some name⟩
  else .ok ⟨command, none⟩

def wantsLog (i : Invocation) : Bool := i.logBaseName.isSome

def verboseArgs : List String := ["-v2", "-maxwarnings", "0"]

def messagePattern : String :=
  "[%\x7btime process\x7d %\x7bif-debug\x7dD%\x7bendif\x7d%\x7bif-info\x7dI%\x7bendif\x7d" ++
  "%\x7bif-warning\x7dW%\x7bendif\x7d%\x7bif-critical\x7dC%\x7bendif\x7d" ++
  "%\x7bif-fatal\x7dF%\x7bendif\x7d] %\x7bcategory\x7d %\x7bfile\x7d:%\x7bline\x7d - %\x7bmessage\x7d"

def verboseEnv : List (String × String) :=
  [("QT_LOGGING_RULES", "*.debug=true"), ("QT_MESSAGE_PATTERN", messagePattern)]

def logArgs (file : String) : List String := ["-o", file ++ ",xml", "-o", "-,txt"]

def injected (i : Invocation) (a : Additions) : List String :=
  (match i.wantsLog, a.logFile with
    | true, some file => logArgs file
    | _, _ => []) ++
  (if a.verbose then verboseArgs else []) ++
  (match a.selection with
    | some c => [c.text]
    | none => [])

def leadArgs (c : Command) : List String :=
  (match c.wrapper with
    | some w => w.program :: w.args
    | none => []) ++ c.testBinary.toList

def args (i : Invocation) (a : Additions) : List String :=
  let tail := i.command.testArgs ++ i.injected a
  leadArgs i.command ++
    (if i.command.hasSeparator && !tail.isEmpty then [Command.separatorArg] else []) ++ tail

def env (base : Environment) (verbose : Bool) : Environment :=
  if verbose then base.setAll verboseEnv else base

end Invocation

end Retrial
