import Retrial.Config.Basic
import Retrial.Duration.Reader
import Retrial.Files.Basic
import Retrial.Number.Numeral
import Retrial.Toml.Reader

/-!
# Configuration files

A configuration file is a settings document with a table of profiles and lists
of wrappers. A key that has no meaning is refused, and so is a value of the
wrong kind. A group of settings may also be written as the list of its values,
in their order; those missing at its end are not set.
-/

set_option autoImplicit false

namespace Retrial

open Retrial.Toml (Value Entries)

inductive ConfigDefect
  | malformed
  | uncountable
  deriving DecidableEq, Repr

inductive ConfigCause
  | unreadable (fault : IoFault)
  | defective (defect : ConfigDefect)
  deriving DecidableEq, Repr

structure ConfigFault where
  file : String
  cause : ConfigCause
  deriving DecidableEq, Repr

def ConfigCause.chain : ConfigCause → List String
  | .unreadable fault => ["error reading file", fault.message]
  | .defective _ => ["error deserializing TOML"]

def ConfigFault.message (f : ConfigFault) : String :=
  "failed to read config file at `" ++ f.file ++ "`"

def ConfigFault.fullMessage (f : ConfigFault) : String :=
  String.intercalate ": " (f.message :: f.cause.chain)

def ConfigFault.overflow? (f : ConfigFault) : Option String :=
  match f.cause with
  | .defective .uncountable => some Duration.ReadFault.sumTooLarge.message
  | _ => none

namespace Config

def readString : Value → Except ConfigDefect String
  | .string s => .ok s
  | _ => .error .malformed

def readCount : Value → Except ConfigDefect Nat
  | .integer n => if 0 ≤ n && n ≤ (Number.maxWord32 : Int) then .ok n.toNat else .error .malformed
  | _ => .error .malformed

def readNames : Value → Except ConfigDefect (List String)
  | .array items => items.mapM readString
  | _ => .error .malformed

def readSpan (v : Value) : Except ConfigDefect Duration := do
  match Duration.read (← readString v).toList with
  | .ok d => .ok d
  | .error .sumTooLarge => .error .uncountable
  | .error _ => .error .malformed

/-- The entries of a table by their keys, the order in which they are read. -/
def inKeyOrder (es : Entries) : Entries := es.mergeSort fun a b => a.1 ≤ b.1

/-- The settings of a group by the names of its fields: a table has them under
its keys, and a list gives them in the order of the fields. -/
def settings (fields : List String) : Value → Except ConfigDefect Entries
  | .table _ es => .ok (inKeyOrder es)
  | .array items => .ok (fields.zip items)
  | _ => .error .malformed

def readGroup {α : Type} (fields : List String) (unset : α)
    (set : α → String → Value → Except ConfigDefect α) (v : Value) : Except ConfigDefect α := do
  (← settings fields v).foldlM (fun group e => set group e.1 e.2) unset

def setProfileField (s : ProfileSettings) (key : String) (v : Value) :
    Except ConfigDefect ProfileSettings :=
  match key with
  | "max-repeats" => (readCount v).map fun n => { s with maxRepeats := some n }
  | "passes-needed" => (readCount v).map fun n => { s with passesNeeded := some n }
  | "crash-reruns" => (readCount v).map fun n => { s with crashReruns := some n }
  | "timeout" => (readSpan v).map fun d => { s with timeout := some d }
  | "no-rerun-functions" => (readNames v).map fun fs => { s with noRerun := some fs }
  | _ => .error .malformed

def readProfile : Value → Except ConfigDefect ProfileSettings :=
  readGroup ["max-repeats", "passes-needed", "crash-reruns", "timeout", "no-rerun-functions"] .none
    setProfileField

def setWrapperField (r : Registry) (key : String) (v : Value) : Except ConfigDefect Registry :=
  match key with
  | "passthrough" => (readNames v).map fun names => { r with passthrough := names }
  | "separator" => (readNames v).map fun names => { r with separator := names }
  | _ => .error .malformed

def readRegistry : Value → Except ConfigDefect Registry :=
  readGroup ["passthrough", "separator"] ⟨[], []⟩ setWrapperField

def readProfiles : Value → Except ConfigDefect (List (String × ProfileSettings))
  | .table _ es => (inKeyOrder es).mapM fun e => (readProfile e.2).map (e.1, ·)
  | _ => .error .malformed

def setLayerField (l : ConfigLayer) (key : String) (v : Value) : Except ConfigDefect ConfigLayer :=
  match key with
  | "default-profile" => (readString v).map fun name => { l with defaultProfile := some name }
  | "profile" => (readProfiles v).map fun ps => { l with profiles := ps }
  | "wrappers" => (readRegistry v).map fun r => { l with wrappers := r }
  | _ => .error .malformed

def readLayer (text : List Char) : Except ConfigDefect ConfigLayer :=
  match Toml.read? text with
  | none => .error .malformed
  | some es =>
    readGroup ["default-profile", "profile", "wrappers"] ⟨none, [], ⟨[], []⟩⟩ setLayerField
      (.table .headed es)

def notText : IoFault := .other "stream did not contain valid UTF-8"

def readFileText (files : Files) (path : String) : Except IoFault (List Char) :=
  match files.read path with
  | .error fault => .error fault
  | .ok bytes => (Text.decode bytes).mapError fun _ => notText

def loadLayer (files : Files) (path : String) : Except ConfigFault ConfigLayer :=
  match readFileText files path with
  | .error fault => .error ⟨path, .unreadable fault⟩
  | .ok text => (readLayer text).mapError fun defect => ⟨path, .defective defect⟩

def defaultPath (directory : String) : String :=
  Path.join directory ".config/qt-testrunner.toml"

/-- The file that is laid over the standard configuration: the one that is named,
else the one that the directory keeps, if it does. -/
def source? (files : Files) (explicit : Option String) (directory : String) : Option String :=
  explicit <|>
    let path := defaultPath directory
    if files.isFile path then some path else none

def load (files : Files) (explicit : Option String) (directory : String) :
    Except ConfigFault Config :=
  match source? files explicit directory with
  | some file => (loadLayer files file).map standard.lay
  | none => .ok standard

end Config

end Retrial
