import Retrial.Shell.Pattern

/-!
# Fields

An expanded word of a child's script becomes fields. Values that are not quoted
are split where separators stand: blanks among the separators merge with each
other and with one other separator, which by itself always ends a field. A quoted
list of arguments keeps each argument in a field of its own; between arguments
that are not quoted there is a gap that separates like a blank.
-/

set_option autoImplicit false

namespace Retrial.Shell

inductive Piece
  | fixed (glyphs : List Glyph)
  | value (chars : List Char)
  | gap
  | arguments (texts : List (List Char))
  deriving DecidableEq, Repr

structure Splitting where
  done : List (List Glyph)
  current : Option (List Glyph)
  afterBlank : Bool
  deriving DecidableEq, Repr

namespace Splitting

def start : Splitting := ⟨[], none, false⟩

def close (s : Splitting) (blank : Bool) : Splitting :=
  match s.current with
  | some field => ⟨s.done ++ [field], none, blank⟩
  | none => { s with afterBlank := blank }

def extend (s : Splitting) (gs : List Glyph) : Splitting :=
  { s with current := some (s.current.getD [] ++ gs), afterBlank := false }

def isSeparatorBlank (separators : List Char) (c : Char) : Bool :=
  separators.contains c && (c == ' ' || c == '\t' || c == '\n')

def take (separators : List Char) (s : Splitting) (c : Char) : Splitting :=
  if isSeparatorBlank separators c then
    if s.current.isSome then s.close true else s
  else if separators.contains c then
    match s.current with
    | some _ => s.close false
    | none => if s.afterBlank then { s with afterBlank := false } else ⟨s.done ++ [[]], none, false⟩
  else s.extend [⟨c, false⟩]

def takeArguments (s : Splitting) : List (List Char) → Splitting
  | [] => s
  | [a] => s.extend (quotedGlyphs a)
  | a :: more => takeArguments ((s.extend (quotedGlyphs a)).close false) more

def takePiece (separators : List Char) (s : Splitting) : Piece → Splitting
  | .fixed gs => s.extend gs
  | .value cs => cs.foldl (take separators) s
  | .gap => if s.current.isSome then s.close true else s
  | .arguments texts => s.takeArguments texts

end Splitting

def fieldsOf (separators : List Char) (pieces : List Piece) : List (List Glyph) :=
  ((pieces.foldl (Splitting.takePiece separators) .start).close false).done

def Piece.glyphs : Piece → List Glyph
  | .fixed gs => gs
  | .value cs => bareGlyphs cs
  | .gap => bareGlyphs [' ']
  | .arguments texts => quotedGlyphs ([' '].intercalate texts)

def joined (pieces : List Piece) : List Glyph := pieces.flatMap Piece.glyphs

def charsOf (gs : List Glyph) : List Char := gs.map (·.char)

def textOf (gs : List Glyph) : String := String.ofList (charsOf gs)

def defaultSeparators : List Char := [' ', '\t', '\n']

end Retrial.Shell
