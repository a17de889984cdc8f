import Retrial.Files.Basic

/-!
# Names of log files

Each attempt has a log file of its own, unless one fixed name is asked for. A
file that lies where a fresh log is expected is removed first; under the fixed
name it may have been put there on purpose and stays.
-/

set_option autoImplicit false

namespace Retrial

structure Moment where
  year : Int
  month : Nat
  day : Nat
  hour : Nat
  minute : Nat
  second : Nat
  deriving DecidableEq, Repr

namespace Moment

def padded (width n : Nat) : String :=
  let t := toString n
  String.ofList (List.replicate (width - t.length) '0') ++ t

/-- A year in four digits, with a sign outside the years 0 to 9999. -/
def yearText (year : Int) : String :=
  if year < 0 then "-" ++ padded 4 year.natAbs
  else if 9999 < year then "+" ++ padded 4 year.natAbs
  else padded 4 year.natAbs

def stamp (m : Moment) : String :=
  yearText m.year ++ padded 2 m.month ++ padded 2 m.day ++ "T" ++ padded 2 m.hour ++
    padded 2 m.minute ++ padded 2 m.second

end Moment

inductive LogNaming
  | unique (stamp : String)
  | fixed
  deriving DecidableEq, Repr

namespace LogNaming

def variableName : String := "QT_TESTRUNNER_DEBUG_NO_UNIQUE_OUTPUT_FILENAME"

/-- The naming for a run that starts at a moment: fixed if the variable is set to 1. -/
def ofVariable (value : Option String) (start : Moment) : LogNaming :=
  if value == some "1" then .fixed else .unique start.stamp

end LogNaming

structure LogNamer where
  directory : String
  baseName : String
  naming : LogNaming
  deriving DecidableEq, Repr

namespace LogNamer

def fileName (n : LogNamer) (attempt : Nat) : String :=
  match n.naming with
  | .unique stamp => n.baseName ++ "-" ++ stamp ++ "-" ++ toString attempt ++ ".xml"
  | .fixed => n.baseName ++ ".xml"

def path (n : LogNamer) (attempt : Nat) : String := Path.join n.directory (n.fileName attempt)

def prepare (n : LogNamer) (attempt : Nat) (files : Files) : Except IoFault Files :=
  match n.naming with
  | .fixed => .ok files
  | .unique _ =>
    if files.fileExists (n.path attempt) then files.remove (n.path attempt) else .ok files

end LogNamer

end Retrial
