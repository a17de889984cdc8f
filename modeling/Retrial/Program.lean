import Retrial.Color
import Retrial.Config.Reader
import Retrial.Diagnostics.Filter
import Retrial.Options.Reader
import Retrial.Options.Usage
import Retrial.Shell.Executor
import Retrial.Transcript

/-!
# The program

The whole command line as a function: from arguments, variables and files to
what is written on the two streams, the exit code and the files left behind.
The code is that of the verdict; a run that reaches none ends as a usage error.
-/

set_option autoImplicit false

namespace Retrial

open Retrial.Text
open Retrial.Diagnostics (Note Filter)

structure Surroundings where
  env : Environment
  start : Moment
  files : Files
  outputOnTerminal : Bool
  errorsOnTerminal : Bool
  deriving DecidableEq, Repr

structure Report where
  exitCode : Nat
  output : Bytes
  errors : Bytes
  files : Files
  deriving DecidableEq, Repr

inductive ProgramFault
  | config (fault : ConfigFault)
  | profile (fault : ProfileNotFound)
  | invocation (fault : InvocationFault)
  | supervision (fault : SupervisionFault)
  deriving DecidableEq, Repr

namespace ProgramFault

def bold (colored : Bool) (text : String) : String :=
  if colored then "\x1b[1m" ++ text ++ "\x1b[0m" else text

def message (colored : Bool) : ProgramFault → String
  | .config fault => "failed to read config file at `" ++ bold colored fault.file ++ "`"
  | .profile fault =>
    "profile `" ++ bold colored fault.profile ++ "` not found in config\n(" ++ fault.message ++ ")"
  | .invocation fault => fault.message
  | .supervision (.execute (.spawn command _)) =>
    "failed to spawn `" ++ bold colored command ++ "`"
  | .supervision (.existingLog _) =>
    "failed to read the test log passed in with --parse-xml-testlog"
  | .supervision fault => fault.message

def causes : ProgramFault → List String
  | .config fault => fault.cause.chain
  | .profile _ => []
  | .invocation _ => []
  | .supervision (.execute (.spawn _ fault)) => [fault.message]
  | .supervision fault => fault.causes

def overflow? : ProgramFault → Option String
  | .config fault => fault.overflow?
  | _ => none

def notes (colored : Bool) (f : ProgramFault) : List Note :=
  ⟨.error, Diagnostics.errorOrigin, true, f.message colored, []⟩ ::
    f.causes.map fun cause =>
      ⟨.error, Diagnostics.causeOrigin, false, "\nCaused by:\n  " ++ cause, []⟩

end ProgramFault

namespace Program

def filterVariable : String := "QT_TESTRUNNER_LOG"

def overrides (o : Options) : ProfileSettings where
  maxRepeats := o.maxRepeats
  passesNeeded := o.passesNeeded
  crashReruns := o.crashReruns
  timeout := o.timeout
  noRerun := none

def configOf (here : Surroundings) (o : Options) : Except ProgramFault Config :=
  (Config.load here.files o.configFile ".").mapError .config

def profileOf (config : Config) (o : Options) : Except ProgramFault Profile :=
  ((config.profile o.profile).mapError .profile).map (·.apply (overrides o))

def setup (here : Surroundings) (o : Options) : Except ProgramFault Setup := do
  let config ← configOf here o
  let profile ← profileOf config o
  let command ← (Command.split config.wrappers o.testArgs).mapError .invocation
  let invocation ←
    (Invocation.build command (!o.noExtraArgs) ArtifactRule.standard).mapError .invocation
  return {
    invocation := invocation
    policy := profile.policy
    logDir := o.logDir
    naming := .ofVariable (here.env.get? LogNaming.variableName) here.start
    timeout := profile.timeout
    env := []
    cwd := none
    existingLog := o.existingLog }

def setupNotes (here : Surroundings) (o : Options) : List Note :=
  match configOf here o with
  | .error _ => []
  | .ok config =>
    ((Config.source? here.files o.configFile ".").map Diagnostics.layerNote).toList ++
      match profileOf config o with
      | .error _ => []
      | .ok profile => [Diagnostics.profileNote profile]

def noteText (colored : Bool) (f : Filter) (notes : List Note) : Bytes :=
  encodeString (String.join ((notes.filter (Diagnostics.shows f)).map (Note.line colored)))

def failureCode : Nat := Verdict.usageError.exitCode

def giveUp (here : Surroundings) (message : String) : Report :=
  ⟨101, [], encodeString (message ++ "\n"), here.files⟩

def carryOut (here : Surroundings) (o : Options) : Report :=
  let outputColored := o.color.colors here.env here.outputOnTerminal
  let errorsColored := o.color.colors here.env here.errorsOnTerminal
  let filter := Diagnostics.filterFor o.verbose (here.env.get? filterVariable)
  let errors (notes : List Note) : Bytes := noteText errorsColored filter (setupNotes here o ++ notes)
  match setup here o with
  | .error fault =>
    match fault.overflow? with
    | some message => giveUp here message
    | none => ⟨failureCode, [], errors (fault.notes errorsColored), here.files⟩
  | .ok s =>
    let run := supervise s (Shell.executor here.env) .willing here.files 0
    let output := run.events.flatMap (Transcript.render ⟨outputColored, o.verbose⟩)
    let notes := Diagnostics.notes run.events
    match run.ending with
    | .summary summary => ⟨summary.verdict.exitCode, output, errors notes, run.files⟩
    | .fault fault =>
      let notes := notes ++ (ProgramFault.supervision fault).notes errorsColored
      ⟨failureCode, output, errors notes, run.files⟩

def refuse (here : Surroundings) (f : OptionFault) : Report :=
  match f with
  | .helpAsked long => ⟨0, encodeString (Usage.helpText here.env long), [], here.files⟩
  | .versionAsked => ⟨0, encodeString Usage.versionText, [], here.files⟩
  | .timeoutOverflow message => giveUp here message
  | f => ⟨failureCode, [], encodeString f.report, here.files⟩

def run (here : Surroundings) (args : List String) : Report :=
  match Options.read here.env args with
  | .error fault => refuse here fault
  | .ok o => carryOut here o

end Program

end Retrial
