import Retrial.Files.Fault
import Retrial.Files.Path
import Retrial.Text.Bytes

/-!
# Files

The files that a run can see: directories, files with their bytes and what may
be done with them, and links that stand for a path. A relative path starts in
the working directory. Each operation either gives its answer or the fault that
a system would report.
-/

set_option autoImplicit false

namespace Retrial

open Retrial.Text

/-- A place in the tree of directories: the names on the way from its root. -/
abbrev Place := List String

inductive Entry
  | directory
  | file (content : Bytes) (mode : Nat)
  | link (target : String)
  deriving DecidableEq, Repr

namespace Entry

def usualMode : Nat := 0o644

def runnableMode : Nat := 0o755

def isRunnable : Entry → Bool
  | .file _ mode => mode &&& 0o111 != 0
  | _ => false

end Entry

structure Files where
  workingDirectory : Place
  entries : List (Place × Entry)
  deriving DecidableEq, Repr

namespace Files

def systemDirectories : List Place :=
  [["tmp"], ["bin"], ["sbin"], ["usr"], ["usr", "bin"], ["usr", "sbin"], ["usr", "lib"], ["usr", "local"],
    ["usr", "local", "bin"], ["etc"], ["dev"], ["root"], ["home"], ["var"], ["var", "tmp"], ["lib"],
    ["opt"], ["proc"], ["sys"], ["run"], ["mnt"]]

def empty : Files := ⟨["work"], (["work"] :: systemDirectories).map (·, .directory)⟩

def seenFrom (files : Files) (place : Place) : Files := { files with workingDirectory := place }

def entryAt? (files : Files) (place : Place) : Option Entry :=
  if place.isEmpty then some .directory else files.entries.lookup place

def put (files : Files) (place : Place) (entry : Entry) : Files :=
  { files with entries := (place, entry) :: files.entries.filter (fun p => p.1 != place) }

def erase (files : Files) (place : Place) : Files :=
  { files with entries := files.entries.filter (fun p => p.1 != place) }

def maxNameBytes : Nat := 255

def maxPathBytes : Nat := 4095

def maxLinks : Nat := 40

/-- Follows names from a place. All but the last must lead to directories, and
where the last one is a link it is followed only if that is asked for. -/
def follow (files : Files) (followsLast : Bool) (links : Nat) (place : Place) :
    List String → Except IoFault Place
  | [] => .ok place
  | name :: rest =>
    match files.entryAt? place with
    | none => .error .noSuchEntry
    | some (.file _ _) | some (.link _) => .error .notADirectory
    | some .directory =>
      if name == "" || name == "." then files.follow followsLast links place rest
      else if name == ".." then files.follow followsLast links place.dropLast rest
      else if maxNameBytes < byteLength name.toList then .error .nameTooLong
      else
        match files.entryAt? (place ++ [name]) with
        | some (.link target) =>
          if rest.isEmpty && !followsLast then .ok (place ++ [name])
          else
            match links with
            | 0 => .error .tooManyLinks
            | links + 1 =>
              files.follow followsLast links (if Path.isAbsolute target then [] else place)
                (Path.segments target ++ rest)
        | _ => files.follow followsLast links (place ++ [name]) rest
  termination_by names => (links, names.length)

def locateSegments (files : Files) (followsLast : Bool) (start : Place) (path : String)
    (names : List String) : Except IoFault Place :=
  if path.toList.contains '\x00' then .error .nulInPath
  else if path.isEmpty then .error .noSuchEntry
  else if maxPathBytes < byteLength path.toList then .error .nameTooLong
  else files.follow followsLast maxLinks (if Path.isAbsolute path then [] else start) names

def locateFrom (files : Files) (start : Place) (path : String) : Except IoFault Place :=
  files.locateSegments true start path (Path.segments path)

def locate (files : Files) (path : String) : Except IoFault Place :=
  files.locateFrom files.workingDirectory path

def locateLink (files : Files) (path : String) : Except IoFault Place :=
  files.locateSegments false files.workingDirectory path (Path.segments path)

def find? (files : Files) (path : String) : Option Entry :=
  match files.locate path with
  | .ok place => files.entryAt? place
  | .error _ => none

def fileExists (files : Files) (path : String) : Bool := (files.find? path).isSome

def isDirectory (files : Files) (path : String) : Bool := files.find? path == some .directory

def isFile (files : Files) (path : String) : Bool :=
  match files.find? path with
  | some (.file _ _) => true
  | _ => false

def read (files : Files) (path : String) : Except IoFault Bytes :=
  match files.locate path with
  | .error fault => .error fault
  | .ok place =>
    match files.entryAt? place with
    | none => .error .noSuchEntry
    | some .directory => .error .isADirectory
    | some (.file content _) => .ok content
    | some (.link _) => .error .tooManyLinks

def insertName (name : String) : List String → List String
  | [] => [name]
  | n :: rest => if name < n then name :: n :: rest else n :: insertName name rest

def namesIn (files : Files) (place : Place) : List String :=
  (files.entries.filterMap fun (p, _) =>
    if p.dropLast == place && p.length == place.length + 1 then p.getLast? else none).foldr
    insertName []

def remove (files : Files) (path : String) : Except IoFault Files :=
  match files.locateLink path with
  | .error fault => .error fault
  | .ok place =>
    match files.entryAt? place with
    | none => .error .noSuchEntry
    | some .directory => .error .isADirectory
    | some _ => .ok (files.erase place)

def createDirectory (files : Files) (path : String) : Except IoFault Files :=
  match files.locateSegments true files.workingDirectory path
      ((Path.segments path).reverse.dropWhile (· == "")).reverse with
  | .error fault => .error fault
  | .ok place =>
    match files.entryAt? place with
    | some _ => .error .alreadyExists
    | none => .ok (files.put place .directory)

def createDirectoriesUpTo (files : Files) : Nat → String → Except IoFault Files
  | depth, path =>
    if path.isEmpty then .ok files
    else
      match files.createDirectory path with
      | .ok files => .ok files
      | .error .noSuchEntry =>
        match depth, Path.parent path with
        | depth + 1, some above =>
          match files.createDirectoriesUpTo depth above with
          | .error fault => .error fault
          | .ok files =>
            match files.createDirectory path with
            | .ok files => .ok files
            | .error fault => if files.isDirectory path then .ok files else .error fault
        | _, _ => .error .noSuchEntry
      | .error fault => if files.isDirectory path then .ok files else .error fault

/-- Creates a directory with all that are missing on the way to it. One that
exists already is left alone. -/
def createDirectories (files : Files) (path : String) : Except IoFault Files :=
  files.createDirectoriesUpTo (Path.segments path).length path

def plant (files : Files) (path : String) (entry : Entry) : Files :=
  let files := match Path.parent path with
    | some above => (files.createDirectories above).toOption.getD files
    | none => files
  match files.locate path with
  | .ok place => files.put place entry
  | .error _ => files

theorem entryAt?_erase (files : Files) (place : Place) (h : place ≠ []) :
    (files.erase place).entryAt? place = none := by
  cases place with
  | nil => exact absurd rfl h
  | cons n ns =>
    simp only [erase, entryAt?, List.isEmpty_cons, Bool.false_eq_true, if_false]
    rw [List.lookup_eq_none_iff]
    intro p hp
    simp only [List.mem_filter, bne_iff_ne, ne_eq] at hp
    simpa using fun e => hp.2 e.symm

end Files

end Retrial
