import Retrial.Command
import Retrial.Duration
import Retrial.Policy

/-!
# Layered configuration

A configuration names profiles. A profile sets some of the values of a retry
policy and leaves the others to the layers below it: the profile that all
others build on, and the standard policy under that. Each value is settled on
its own, by the topmost layer that sets it. Layers put over a configuration
extend its lists of wrappers and take nothing away.
-/

set_option autoImplicit false

namespace Retrial

structure ProfileSettings where
  maxRepeats : Option Nat
  passesNeeded : Option Nat
  crashReruns : Option Nat
  timeout : Option Duration
  noRerun : Option (List String)
  deriving DecidableEq, Repr

namespace ProfileSettings

def none : ProfileSettings := ⟨.none, .none, .none, .none, .none⟩

/-- Settings put over others: what the upper ones leave open, the lower decide. -/
def above (upper lower : ProfileSettings) : ProfileSettings where
  maxRepeats := upper.maxRepeats <|> lower.maxRepeats
  passesNeeded := upper.passesNeeded <|> lower.passesNeeded
  crashReruns := upper.crashReruns <|> lower.crashReruns
  timeout := upper.timeout <|> lower.timeout
  noRerun := upper.noRerun <|> lower.noRerun

end ProfileSettings

structure Profile where
  name : String
  policy : Policy
  timeout : Option Duration
  deriving DecidableEq, Repr

namespace Profile

def standard (name : String) : Profile := ⟨name, .standard, none⟩

def apply (p : Profile) (s : ProfileSettings) : Profile where
  name := p.name
  policy := {
    maxRepeats := s.maxRepeats.getD p.policy.maxRepeats
    passesNeeded := s.passesNeeded.getD p.policy.passesNeeded
    crashReruns := s.crashReruns.getD p.policy.crashReruns
    noRerun := s.noRerun.getD p.policy.noRerun }
  timeout := s.timeout <|> p.timeout

end Profile

structure ConfigLayer where
  defaultProfile : Option String
  profiles : List (String × ProfileSettings)
  wrappers : Registry
  deriving DecidableEq, Repr

structure Config where
  defaultProfile : String
  profiles : List (String × ProfileSettings)
  wrappers : Registry
  deriving DecidableEq, Repr

structure ProfileNotFound where
  profile : String
  known : List String
  deriving DecidableEq, Repr

def ProfileNotFound.message (f : ProfileNotFound) : String :=
  "profile `" ++ f.profile ++ "` not found (known profiles: " ++ String.intercalate ", " f.known ++ ")"

namespace Config

def baseProfile : String := "default"

def standard : Config where
  defaultProfile := baseProfile
  profiles := [(baseProfile, ⟨some 5, some 1, some 1, none,
    some ["initTestCase", "init", "cleanup", "cleanupTestCase"]⟩)]
  wrappers := ⟨["coin_vxworks_qemu_runner.sh", "coin_qnx_qemu_runner.sh"], ["androidtestrunner"]⟩

def layProfile (name : String) (s : ProfileSettings) :
    List (String × ProfileSettings) → List (String × ProfileSettings)
  | [] => [(name, s)]
  | (n, t) :: rest => if n == name then (n, s.above t) :: rest else (n, t) :: layProfile name s rest

def extendNames (names added : List String) : List String :=
  added.foldl (fun names name => if names.contains name then names else names ++ [name]) names

def lay (c : Config) (layer : ConfigLayer) : Config where
  defaultProfile := layer.defaultProfile.getD c.defaultProfile
  profiles := layer.profiles.foldl (fun ps p => layProfile p.1 p.2 ps) c.profiles
  wrappers := {
    passthrough := extendNames c.wrappers.passthrough layer.wrappers.passthrough
    separator := extendNames c.wrappers.separator layer.wrappers.separator }

def settings? (c : Config) (name : String) : Option ProfileSettings := c.profiles.lookup name

def profileNames (c : Config) : List String :=
  (c.profiles.map (·.1)).foldr Policy.insertName []

def profile (c : Config) (name : Option String) : Except ProfileNotFound Profile :=
  let name := name.getD c.defaultProfile
  match c.settings? name with
  | none => .error ⟨name, c.profileNames⟩
  | some named =>
    let base := (c.settings? baseProfile).getD .none
    .ok (((Profile.standard name).apply base).apply named)

theorem settings?_layProfile_self (c : List (String × ProfileSettings)) (name : String)
    (s : ProfileSettings) :
    (layProfile name s c).lookup name = some (s.above ((c.lookup name).getD .none)) := by
  induction c with
  | nil => cases s; simp [layProfile, ProfileSettings.above, ProfileSettings.none]
  | cons p rest ih =>
    obtain ⟨n, t⟩ := p
    by_cases h : n = name
    · simp [layProfile, h]
    · have h' : (name == n) = false := by simpa using fun e : name = n => h e.symm
      simp [layProfile, h, List.lookup_cons, h', ih]

theorem mem_extendNames {a : String} {names added : List String} :
    a ∈ extendNames names added ↔ a ∈ names ∨ a ∈ added := by
  unfold extendNames
  induction added generalizing names with
  | nil => simp
  | cons n rest ih =>
    simp only [List.foldl_cons, ih, List.mem_cons]
    split
    · next h =>
      have hn : n ∈ names := by simpa using h
      constructor
      · rintro (h | h)
        · exact .inl h
        · exact .inr (.inr h)
      · rintro (h | rfl | h)
        · exact .inl h
        · exact .inl hn
        · exact .inr h
    · simp [or_assoc]

end Config

end Retrial
