import Retrial.Attempt
import Retrial.Number.Numeral
import Retrial.Options

/-!
# Color

Whether a stream is colored. Unless the options say so, variables decide: they
may force color on any stream; without that it is for terminals which variables
show to have it, and for automated builds, and a user may refuse it.
-/

set_option autoImplicit false

namespace Retrial

namespace Color

def forcedBy (value : String) : Nat :=
  match value with
  | "" => 1
  | "true" => 1
  | "false" => 0
  | text =>
    match Number.readSigned 10 Number.maxWord64 text.toList with
    | .ok n => n
    | .error _ => 1

def isOn (env : Environment) (name : String) : Bool :=
  match env.get? name with
  | some value => value != "0"
  | none => false

def isSet (env : Environment) (name : String) : Bool := (env.get? name).isSome

def isForced (env : Environment) : Bool :=
  match env.get? "FORCE_COLOR" with
  | some value => forcedBy value != 0
  | none => isOn env "CLICOLOR_FORCE"

def isRefused (env : Environment) : Bool :=
  isOn env "NO_COLOR" || env.get? "TERM" == some "dumb"

def builderNames : List String :=
  ["CI_NAME", "GITHUB_ACTION", "GITLAB_CI", "NETLIFY", "TRAVIS", "CODEBUILD_SRC_DIR",
    "BUILDER_OUTPUT", "GITLAB_DEPLOYMENT", "NOW_GITHUB_DEPLOYMENT", "NOW_BUILDER",
    "BITBUCKET_DEPLOYMENT", "GERRIT_PROJECT", "SYSTEM_TEAMFOUNDATIONCOLLECTIONURI", "BITRISE_IO",
    "BUDDY_WORKSPACE_ID", "BUILDKITE", "CIRRUS_CI", "APPVEYOR", "CIRCLECI", "SEMAPHORE", "DRONE",
    "DSARI", "TDDIUM", "STRIDER", "TASKCLUSTER_ROOT_URL", "JENKINS_URL", "bamboo.buildKey",
    "GO_PIPELINE_NAME", "HUDSON_URL", "WERCKER", "MAGNUM", "NEVERCODE", "RENDER", "SAIL_CI",
    "SHIPPABLE"]

def isAutomated (env : Environment) : Bool :=
  ((env.get? "CI").any fun ci => ["true", "1", "woodpecker"].contains ci) ||
    ((env.get? "NODE").any fun node => node.endsWith "//heroku/node/bin/node") ||
    builderNames.any (isSet env)

/-- Whether what the variables tell of a terminal speaks for color. Any terminal
that is not refused has it. -/
def isKnown (env : Environment) : Bool :=
  isSet env "COLORTERM" || isSet env "TERM" ||
    ((env.get? "TERM_PROGRAM").any fun p => p == "iTerm.app" || p == "Apple_Terminal") ||
    isOn env "CLICOLOR" || isAutomated env

def isDefault (env : Environment) (onTerminal : Bool) : Bool :=
  isForced env ||
    (!isRefused env && (onTerminal || isOn env "IGNORE_IS_TERMINAL") && isKnown env)

def variableNames : List String :=
  ["FORCE_COLOR", "CLICOLOR_FORCE", "NO_COLOR", "TERM", "IGNORE_IS_TERMINAL", "COLORTERM",
    "TERM_PROGRAM", "CLICOLOR", "CI", "NODE"] ++ builderNames

end Color

def ColorChoice.colors (env : Environment) (onTerminal : Bool) : ColorChoice → Bool
  | .always => true
  | .never => false
  | .auto => Color.isDefault env onTerminal

end Retrial
