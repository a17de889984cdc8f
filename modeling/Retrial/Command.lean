import Retrial.Files.Path

/-!
# Commands

A supervised command is a test binary, or a test binary behind a wrapper script
that is known by its file name. A passthrough wrapper takes the binary and its
arguments as they are; a separator wrapper finds the binary from its own
arguments and takes the test arguments after a separator.
-/

set_option autoImplicit false

namespace Retrial

inductive WrapperKind
  | passthrough
  | separator
  deriving DecidableEq, Repr

structure Registry where
  passthrough : List String
  separator : List String
  deriving DecidableEq, Repr

def Registry.kindOf? (r : Registry) (program : String) : Option WrapperKind :=
  let name := Path.programName program
  if r.passthrough.contains name then some .passthrough
  else if r.separator.contains name then some .separator
  else none

structure Wrapper where
  program : String
  kind : WrapperKind
  args : List String
  deriving DecidableEq, Repr

structure Command where
  wrapper : Option Wrapper
  testBinary : Option String
  testArgs : List String
  deriving DecidableEq, Repr

inductive InvocationFault
  | emptyCommand
  | missingTestBinary (wrapper : String)
  | artifactNotFound (program expected : String)
  deriving DecidableEq, Repr

def InvocationFault.message : InvocationFault → String
  | .emptyCommand => "no test command provided"
  | .missingTestBinary wrapper => "wrapper `" ++ wrapper ++ "` must be followed by the test binary"
  | .artifactNotFound program expected =>
    "cannot determine the artifact under test for `" ++ program ++ "`: expected " ++ expected

namespace Command

def separatorArg : String := "--"

/-- Splits a flat command line into wrapper, test binary and test arguments. Of
several separators the first one counts. -/
def split (registry : Registry) : List String → Except InvocationFault Command
  | [] => .error .emptyCommand
  | program :: args =>
    match registry.kindOf? program with
    | none => .ok ⟨none, some program, args⟩
    | some .passthrough =>
      match args with
      | [] => .error (.missingTestBinary program)
      | binary :: args => .ok ⟨some ⟨program, .passthrough, []⟩, some binary, args⟩
    | some .separator =>
      .ok ⟨some ⟨program, .separator, args.takeWhile (· != separatorArg)⟩, none,
        (args.dropWhile (· != separatorArg)).drop 1⟩

def program (c : Command) : String :=
  match c.wrapper, c.testBinary with
  | some w, _ => w.program
  | none, some binary => binary
  | none, none => ""

def hasSeparator (c : Command) : Bool :=
  match c.wrapper with
  | some w => w.kind == .separator
  | none => false

end Command

end Retrial
