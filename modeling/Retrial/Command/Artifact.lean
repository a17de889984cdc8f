import Retrial.Command

/-!
# The artifact under test

The name of what is tested, from which log files take theirs. Each way to find
it either does not apply to a command, or applies and decides.
-/

set_option autoImplicit false

namespace Retrial

inductive ArtifactRule
  | packageOption
  | testBinary
  | fixed (name : String)
  deriving DecidableEq, Repr

inductive ArtifactLookup
  | notApplicable
  | found (name : String)
  | missing (expected : String)
  deriving DecidableEq, Repr

namespace ArtifactRule

def packageOptions : List String := ["--apk", "--aab"]

/-- The value that an argument gives to an option: its own text after an equals
sign, or the argument that follows it. -/
def optionValue? (option arg : String) (following : Option String) : Option String :=
  if arg == option then following
  else if (option.toList ++ ['=']).isPrefixOf arg.toList then
    some (String.ofList (arg.toList.drop (option.toList.length + 1)))
  else none

def packageName? : List String → Option String
  | [] => none
  | arg :: rest =>
    match packageOptions.findSome? fun option =>
        (optionValue? option arg rest.head?).bind Path.artifactStem? with
    | some name => some name
    | none => packageName? rest

def lookup (rule : ArtifactRule) (c : Command) : ArtifactLookup :=
  match rule with
  | .fixed name => .found name
  | .packageOption =>
    match c.wrapper with
    | some ⟨_, .separator, args⟩ =>
      match packageName? args with
      | some name => .found name
      | none => .missing "an --apk or --aab wrapper argument"
    | _ => .notApplicable
  | .testBinary =>
    match c.testBinary with
    | none => .notApplicable
    | some binary =>
      match Path.artifactStem? binary with
      | some name => .found name
      | none => .missing "a test binary file name"

def standard : List ArtifactRule := [.packageOption, .testBinary]

def resolve (rules : List ArtifactRule) (c : Command) : Except InvocationFault String :=
  match rules with
  | [] => .error (.artifactNotFound c.program "a test binary")
  | rule :: rest =>
    match rule.lookup c with
    | .notApplicable => resolve rest c
    | .found name => .ok name
    | .missing expected => .error (.artifactNotFound c.program expected)

end ArtifactRule

end Retrial
