import Retrial.Duration.Timeout
import Retrial.Text.Similarity

/-!
# Options of the command line

The options that stand before the test command, what each of them is called,
and what may be wrong with the way they are given. The test command begins at
the first argument that is not one of these options; all that follows belongs
to the tests, whatever it looks like.
-/

set_option autoImplicit false

namespace Retrial

inductive ColorChoice
  | auto
  | always
  | never
  deriving DecidableEq, Repr

namespace ColorChoice

def name : ColorChoice → String
  | .auto => "auto"
  | .always => "always"
  | .never => "never"

def all : List ColorChoice := [.auto, .always, .never]

def ofName? (name : String) : Option ColorChoice := all.find? (·.name == name)

end ColorChoice

inductive OptionName
  | verbose
  | color
  | configFile
  | profile
  | maxRepeats
  | passesNeeded
  | crashReruns
  | timeout
  | logDir
  | noExtraArgs
  | existingLog
  | help
  | version
  deriving DecidableEq, Repr

namespace OptionName

def all : List OptionName :=
  [.verbose, .color, .configFile, .profile, .maxRepeats, .passesNeeded, .crashReruns, .timeout,
    .logDir, .noExtraArgs, .existingLog, .help, .version]

def long : OptionName → String
  | .verbose => "verbose"
  | .color => "color"
  | .configFile => "config-file"
  | .profile => "profile"
  | .maxRepeats => "max-repeats"
  | .passesNeeded => "passes-needed"
  | .crashReruns => "crash-reruns"
  | .timeout => "timeout"
  | .logDir => "log-dir"
  | .noExtraArgs => "no-extra-args"
  | .existingLog => "parse-xml-testlog"
  | .help => "help"
  | .version => "version"

def short? : OptionName → Option Char
  | .verbose => some 'v'
  | .help => some 'h'
  | .version => some 'V'
  | _ => none

def value? : OptionName → Option String
  | .color => some "WHEN"
  | .configFile => some "PATH"
  | .profile => some "NAME"
  | .maxRepeats | .passesNeeded | .crashReruns => some "N"
  | .timeout => some "DURATION"
  | .logDir => some "DIR"
  | .existingLog => some "FILE"
  | _ => none

def takesValue (o : OptionName) : Bool := o.value?.isSome

def environmentName? : OptionName → Option String
  | .verbose => some "QT_TESTRUNNER_VERBOSE"
  | .color => some "QT_TESTRUNNER_COLOR"
  | .configFile => some "QT_TESTRUNNER_CONFIG"
  | .profile => some "QT_TESTRUNNER_PROFILE"
  | _ => none

def choices : OptionName → List String
  | .color => ColorChoice.all.map ColorChoice.name
  | .verbose => ["true", "false"]
  | .noExtraArgs => ["true", "false"]
  | _ => []

def label (o : OptionName) : String :=
  match o.value? with
  | some value => "--" ++ o.long ++ " <" ++ value ++ ">"
  | none => "--" ++ o.long

def ofLong? (name : String) : Option OptionName := all.find? (·.long == name)

def ofShort? (c : Char) : Option OptionName := all.find? (·.short? == some c)

end OptionName

structure Options where
  verbose : Bool
  color : ColorChoice
  configFile : Option String
  profile : Option String
  maxRepeats : Option Nat
  passesNeeded : Option Nat
  crashReruns : Option Nat
  timeout : Option Duration
  logDir : String
  noExtraArgs : Bool
  existingLog : Option String
  testArgs : List String
  deriving DecidableEq, Repr

def Options.standard : Options where
  verbose := false
  color := .auto
  configFile := none
  profile := none
  maxRepeats := none
  passesNeeded := none
  crashReruns := none
  timeout := none
  logDir := "."
  noExtraArgs := false
  existingLog := none
  testArgs := []

/-- Why a command line is not carried out: it asks for help, or something is
wrong with an option, or there is no test command. Where it matters what else
stands on the command line, the options that were given are listed. -/
inductive OptionFault
  | helpAsked (long : Bool)
  | versionAsked
  | repeated (o : OptionName)
  | conflicting (o other : OptionName) (given : List OptionName)
  | valueMissing (o : OptionName)
  | valueUnknown (o : OptionName) (text : String)
  | valueRefused (o : OptionName) (text message : String)
  | valueUnneeded (o : OptionName) (text : String) (given : List OptionName)
  | testArgsMissing (given : List OptionName)
  | timeoutOverflow (message : String)
  deriving DecidableEq, Repr

namespace OptionFault

def option? : OptionFault → Option OptionName
  | .repeated o => some o
  | .conflicting o _ _ => some o
  | .valueMissing o => some o
  | .valueUnknown o _ => some o
  | .valueRefused o _ _ => some o
  | .valueUnneeded o _ _ => some o
  | _ => none

def message? : OptionFault → Option String
  | .valueRefused _ _ message => some message
  | .timeoutOverflow message => some message
  | _ => none

end OptionFault

end Retrial
