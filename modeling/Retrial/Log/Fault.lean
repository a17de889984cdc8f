import Retrial.Files.Fault
import Retrial.Text.Bytes
import Retrial.Xml.Fault

/-!
# Why a log cannot be used

A log that cannot be read, is no text, is no XML or is not the log of a test.
The path is known when the log comes from a file.
-/

set_option autoImplicit false

namespace Retrial.Log

open Retrial.Text

inductive Cause
  | unreadable (fault : IoFault)
  | notUtf8 (fault : Utf8Fault)
  | xml (position : Nat) (fault : Xml.Fault)
  | truncated (element : String)
  | unexpectedRoot (found : String)
  | unnamedFunction (position : Nat)
  deriving DecidableEq, Repr

structure Fault where
  path : Option String
  cause : Cause
  deriving DecidableEq, Repr

def Cause.message : Cause → String
  | .unreadable _ => "failed to read log"
  | .notUtf8 _ => "log is not valid UTF-8"
  | .xml position _ => "malformed XML at byte " ++ toString position
  | .truncated element => "log ends inside an open `" ++ element ++ "` element"
  | .unexpectedRoot found => "expected root element `TestCase`, found `" ++ found ++ "`"
  | .unnamedFunction position =>
    "`TestFunction` element at byte " ++ toString position ++ " has no `name` attribute"

def Cause.position? : Cause → Option Nat
  | .xml position _ => some position
  | .unnamedFunction position => some position
  | _ => none

def Cause.chain (c : Cause) : List String :=
  match c with
  | .unreadable fault => [c.message, fault.message]
  | .notUtf8 fault => [c.message, fault.message]
  | .xml _ fault => c.message :: fault.chain
  | _ => [c.message]

def Fault.message (f : Fault) : String :=
  match f.path with
  | none => "error parsing QtTest XML log"
  | some path => "error parsing QtTest XML log at `" ++ path ++ "`"

def Fault.chain (f : Fault) : List String := f.message :: f.cause.chain

def Fault.fullMessage (f : Fault) : String := String.intercalate ": " f.chain

end Retrial.Log
