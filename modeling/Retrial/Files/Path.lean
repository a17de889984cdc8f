import Retrial.Text.Blank

/-!
# Paths

A path is the text a user wrote. Joining keeps that text as it is, so that it
can be shown again; splitting it into segments is left to the file system.
-/

set_option autoImplicit false

namespace Retrial.Path

def isAbsolute (path : String) : Bool := path.toList.head? == some '/'

/-- A path taken relative to a base; an absolute path replaces the base. -/
def join (base path : String) : String :=
  if isAbsolute path then path
  else if base.isEmpty then path
  else if base.toList.getLast? == some '/' then base ++ path
  else base ++ "/" ++ path

def splitSegments : List Char → List (List Char)
  | [] => [[]]
  | c :: cs =>
    if c == '/' then [] :: splitSegments cs
    else
      match splitSegments cs with
      | [] => [[c]]
      | s :: rest => (c :: s) :: rest

def segments (path : String) : List String := (splitSegments path.toList).map String.ofList

/-- Segments, the last one first, without those at the end that change nothing
for a directory. The first segment of a path always stays. -/
def trimReversed : List String → List String
  | [] => []
  | [s] => [s]
  | s :: rest => if s == "" || s == "." then trimReversed rest else s :: rest

def parent (path : String) : Option String :=
  match trimReversed (segments path).reverse with
  | [] => none
  | [s] => if s == "" then none else some ""
  | _ :: rest =>
    let above := trimReversed rest
    if above.all (· == "") then some "/" else some (String.intercalate "/" above.reverse)

def isSeparator (c : Char) : Bool := c == '/' || c == '\\'

def lastSegment (path : List Char) : List Char :=
  (path.reverse.takeWhile fun c => !isSeparator c).reverse

/-- A file name without its last extension. A dot at the front begins no
extension, and the two names that stand for directories name no file. -/
def stemOf? (name : List Char) : Option (List Char) :=
  if name == [] || name == ['.'] || name == ['.', '.'] then none
  else
    match (name.reverse.dropWhile (· != '.')).reverse with
    | [] => some name
    | ['.'] => some name
    | before => some before.dropLast

def artifactStem? (path : String) : Option String :=
  (stemOf? (lastSegment path.toList)).map String.ofList

def programName (program : String) : String := String.ofList (lastSegment program.toList)

end Retrial.Path
