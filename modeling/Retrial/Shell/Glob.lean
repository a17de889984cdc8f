import Retrial.Files.Basic
import Retrial.Shell.Fields

/-!
# Patterns for files

A field that is a pattern stands, in the script of a child, for the paths it fits,
segment by segment and in the order of their names; without any it stands for
itself.
-/

set_option autoImplicit false

namespace Retrial.Shell

open Retrial.Text

def octetNames (files : Files) (place : Place) : List String :=
  "." :: ".." :: (files.namesIn place).map octets

def isTaken (files : Files) (place : Place) : Bool := (files.entryAt? place).isSome

def globSegments (files : Files) : List (List Glyph) → List (String × Place) → List (String × Place)
  | [], found => found
  | segment :: more, found =>
    let next := found.flatMap fun (path, place) =>
      let prefixed (n : String) : String :=
        if path.isEmpty then n else if path.endsWith "/" then path ++ n else path ++ "/" ++ n
      if isPattern segment then
        let hidden := (segment.head?.map (·.char)) == some '.'
        ((octetNames files place).filter fun n =>
          isMatch segment n.toList && (hidden || n.toList.head? != some '.')).filterMap fun n =>
            match files.follow more.isEmpty Files.maxLinks place [spelled n] with
            | .ok goal =>
              if !more.isEmpty && files.entryAt? goal != some .directory then none
              else some (prefixed n, goal)
            | .error _ => none
      else
        let n := textOf segment
        if n.isEmpty then [(if path.endsWith "/" then path else path ++ "/", place)]
        else
          match files.follow true Files.maxLinks place [spelled n] with
          | .ok goal => if isTaken files goal then [(prefixed n, goal)] else []
          | .error _ => []
    globSegments files more next

def splitGlyphs : List Glyph → List (List Glyph)
  | [] => [[]]
  | g :: gs =>
    match splitGlyphs gs with
    | [] => [[g]]
    | s :: rest => if g.char == '/' then [] :: s :: rest else (g :: s) :: rest

def glob (files : Files) (field : List Glyph) : List String :=
  if isPattern field then
    let segments := splitGlyphs field
    let start : String × Place :=
      if (field.head?.map (·.char)) == some '/' then ("/", []) else ("", files.workingDirectory)
    let segments := if (field.head?.map (·.char)) == some '/' then segments.drop 1 else segments
    match (globSegments files segments [start]).map (·.1) with
    | [] => [textOf field]
    | names => names
  else [textOf field]

end Retrial.Shell
