import Retrial.Shell.Fields
import Retrial.Shell.State

/-!
# Parameters

The values of a child's variables, of its numbered arguments and of the parameters
that its shell keeps itself, and the pieces that they put into a word.
-/

set_option autoImplicit false

namespace Retrial.Shell

def optionLetters : List Char := "pubaCEVvxsnmiIfe".toList

def separators (s : State) : List Char :=
  match s.value? "IFS" with
  | some text => text.toList
  | none => defaultSeparators

def joinedArguments (s : State) : String :=
  String.intercalate (String.ofList ((separators s).take 1)) s.arguments

def parameter? (s : State) (name : String) : Option String :=
  match name with
  | "?" => some (toString s.status)
  | "#" => some (toString s.arguments.length)
  | "$" => some (toString s.number)
  | "!" => s.lastJob.map toString
  | "-" => some (String.ofList (optionLetters.filter s.options.contains))
  | "0" => some s.title
  | "@" | "*" => some (joinedArguments s)
  | name =>
    match name.toNat? with
    | some 0 => some s.title
    | some n => s.arguments[n - 1]?
    | none => s.value? name

def pieceOf (quoted : Bool) (text : String) : Piece :=
  if quoted then .fixed (quotedGlyphs text.toList) else .value text.toList

def parameterPieces (s : State) (fields quoted : Bool) (name : String) : List Piece :=
  let texts := s.arguments.map String.toList
  match name, quoted, fields with
  | "@", true, true => [.arguments texts]
  | "@", false, true | "*", false, true => (texts.map Piece.value).intersperse .gap
  | name, quoted, _ => [pieceOf quoted ((parameter? s name).getD "")]

end Retrial.Shell
