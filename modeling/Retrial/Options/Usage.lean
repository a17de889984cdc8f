import Retrial.Attempt
import Retrial.Options

/-!
# Usage

What the program tells about its command line: the line that shows its form, the
help, and why a command line was refused. Help comes in two lengths: a short one
with a line for each option, and a long one that gives every option a paragraph.
-/

set_option autoImplicit false

namespace Retrial

namespace Usage

def programName : String := "qt-testrunner"

def versionText : String := programName ++ " 0.1.0\n"

def testArgsLabel : String := "<TESTARGS>..."

def form (parts : List String) : String :=
  "Usage: " ++ String.intercalate " " (programName :: parts ++ [testArgsLabel])

def generalForm : String := form ["[OPTIONS]"]

def formOf (given : List OptionName) : String := form (given.map OptionName.label)

def summary : String :=
  "Run a QtTest binary, rerun its failing test cases, and report a verdict"

def exitCodes : String :=
  "Exit codes: 0 if every test case passed (possibly after reruns), 1 for usage errors, " ++
    "2 if a test case failed on every rerun, 3 if the test binary crashed."

def testArgsHelp : String :=
  "The test binary and its arguments, optionally behind a known wrapper script"

def help (long : Bool) : OptionName → String
  | .verbose => "Verbose output: debug logging, full command lines and environment overlays"
  | .color => "Produce color output: auto, always, never"
  | .configFile => "Config file [default: .config/qt-testrunner.toml if present]"
  | .profile => "Config profile to use [default: the config's default profile]"
  | .maxRepeats => "Number of times each failing test case is rerun [default: 5]"
  | .passesNeeded =>
    "Number of passing reruns a failing test case needs to count as flaky [default: 1]"
  | .crashReruns => "Number of times the whole test binary is rerun after a crash [default: 1]"
  | .timeout => "Kill attempts that run longer than this (seconds, or a duration like \"5m\")"
  | .logDir => "Directory to write XML logs to"
  | .noExtraArgs => "Do not inject log arguments: attempts are judged by exit code alone"
  | .existingLog => "Classify an existing XML log instead of running the test binary first"
  | .help => if long then "Print help (see a summary with '-h')" else "Print help (see more with '--help')"
  | .version => "Print version"

def remarks (env : Environment) (o : OptionName) : List String :=
  (o.environmentName?.map fun name =>
    "[env: " ++ name ++ "=" ++ (env.get? name).getD "" ++ "]").toList ++
  match o with
  | .color => ["[default: " ++ Options.standard.color.name ++ "]"]
  | .logDir => ["[default: " ++ Options.standard.logDir ++ "]"]
  | _ => []

def names (o : OptionName) : String :=
  (match o.short? with
    | some c => "  -" ++ String.singleton c ++ ", "
    | none => "      ") ++ o.label

def spaces (n : Nat) : String := String.ofList (List.replicate n ' ')

/-- An entry of the help: what it is about, its text and what is remarked on it.
In short help the texts stand in a column. -/
def entry (long : Bool) (width : Nat) (subject text : String) (remarks : List String) : String :=
  if long then
    String.intercalate ("\n" ++ spaces 10)
      ([subject, text] ++ (if remarks.isEmpty then [] else "" :: remarks))
  else
    subject ++ spaces (width - subject.length) ++ "  " ++ String.intercalate " " (text :: remarks)

def part (long : Bool) (heading : String) (entries : List (String × String × List String)) : String :=
  let width := (entries.map fun e => e.1.length).foldl max 0
  heading ++ ":\n" ++ String.intercalate (if long then "\n\n" else "\n")
    (entries.map fun e => entry long width e.1 e.2.1 e.2.2)

def groups : List (String × List OptionName) :=
  [("Options", [.logDir, .noExtraArgs, .existingLog, .help, .version]),
    ("Output options", [.verbose, .color]),
    ("Config options", [.configFile, .profile]),
    ("Retry options", [.maxRepeats, .passesNeeded, .crashReruns, .timeout])]

def helpText (env : Environment) (long : Bool) : String :=
  let about := if long then summary ++ ".\n\n" ++ exitCodes else summary
  let arguments := part long "Arguments" [("  " ++ testArgsLabel, testArgsHelp, [])]
  let options := groups.map fun g =>
    part long g.1 (g.2.map fun o => (names o, help long o, remarks env o))
  String.intercalate "\n\n" ([about, generalForm, arguments] ++ options) ++ "\n"

end Usage

namespace OptionFault

def choicesLine (o : OptionName) : String :=
  if o.choices.isEmpty then ""
  else "\n  [possible values: " ++ String.intercalate ", " o.choices ++ "]"

def text : OptionFault → String
  | .helpAsked _ => ""
  | .versionAsked => ""
  | .repeated o => "the argument '" ++ o.label ++ "' cannot be used multiple times"
  | .conflicting o other _ =>
    "the argument '" ++ o.label ++ "' cannot be used with '" ++ other.label ++ "'"
  | .valueMissing o =>
    "a value is required for '" ++ o.label ++ "' but none was supplied" ++ choicesLine o
  | .valueUnknown o text =>
    if text.isEmpty then
      "a value is required for '" ++ o.label ++ "' but none was supplied" ++ choicesLine o
    else
      "invalid value '" ++ text ++ "' for '" ++ o.label ++ "'" ++ choicesLine o ++
        match Text.closest? text o.choices with
        | some word => "\n\n  tip: a similar value exists: '" ++ word ++ "'"
        | none => ""
  | .valueRefused o text message =>
    "invalid value '" ++ text ++ "' for '" ++ o.label ++ "': " ++ message
  | .valueUnneeded o text _ =>
    "unexpected value '" ++ text ++ "' for '" ++ o.label ++ "' found; no more were expected"
  | .testArgsMissing _ =>
    "the following required arguments were not provided:\n  " ++ Usage.testArgsLabel
  | .timeoutOverflow message => message

def form? : OptionFault → Option String
  | .repeated _ => some Usage.generalForm
  | .conflicting _ other given => some (Usage.formOf (given.filter (· != other)))
  | .valueUnneeded o _ given => some (Usage.formOf (given.filter (· != o) ++ [o]))
  | .testArgsMissing given => some (Usage.formOf given)
  | _ => none

def report (f : OptionFault) : String :=
  String.intercalate "\n\n"
    (["error: " ++ f.text] ++ f.form?.toList ++
      ["For more information, try '" ++ OptionName.help.label ++ "'."]) ++ "\n"

end OptionFault

end Retrial
