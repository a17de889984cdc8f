import Retrial.Shell.Arithmetic
import Retrial.Shell.Glob
import Retrial.Shell.Parameter
import Retrial.Shell.Stream

/-!
# Expansion

What a word in the script of a child stands for when its command is run.
Parameters and arithmetic are computed here; how a script is run whose output
stands for a word is left to the caller. A word becomes either one text, or a
pattern, or fields that may stand for the names of files.
-/

set_option autoImplicit false

namespace Retrial.Shell

open Retrial.Text

def withoutNewlines (cs : List Char) : List Char := (cs.reverse.dropWhile (· == '\n')).reverse

def countOf (word : String) : Eval Nat := do
  match Arithmetic.integer? false word with
  | some n => if n < 0 || 2147483647 < n then fail ("Illegal number: " ++ word) else return n.toNat
  | none => fail ("Illegal number: " ++ word)

def assignVariable (name value : String) : Eval Unit := do
  let s ← get
  if ((s.binding? name).map (·.fixed)).getD false then fail (name ++ ": is read only")
  else
    set (s.assign name value)
    if name == "OPTIND" then
      let n ← countOf value
      modify fun s => { s with nextOption := max 1 n, letter := none }
    else if name == "PATH" then modify fun s => { s with known := [] }

def compute (cs : List Char) : Eval Int := do
  let s ← get
  match Arithmetic.evaluate (parameter? s) cs with
  | .ok (n, assigned) =>
    assigned.forM fun (name, value) => assignVariable name (toString value)
    return n
  | .error fault => fail (fault.message (String.ofList cs))

def refuseUnset {α : Type} (name message : String) : Eval α := fail (name ++ ": " ++ message)

mutual

/-- The pieces of a part. Bare text inside of a replacement is split like a value. -/
def expandPart (run : Script → Eval Bytes) (fields loose : Bool) : Part → Eval (List Piece)
  | .text quoted cs =>
    return [if quoted then .fixed (quotedGlyphs cs)
      else if loose then .value cs
      else .fixed (bareGlyphs cs)]
  | .parameter quoted name treatment => expandParameter run fields quoted name treatment
  | .arithmetic quoted expression => do
    let pieces ← expandWord run false false expression
    return [pieceOf quoted (toString (← compute (charsOf (joined pieces))))]
  | .substitution quoted script => do
    let bytes ← run script
    let cs := octetsOf (bytes.filter (· != 0))
    return [pieceOf quoted (String.ofList (withoutNewlines cs))]

def expandWord (run : Script → Eval Bytes) (fields loose : Bool) : List Part → Eval (List Piece)
  | [] => return []
  | p :: ps => do
    let first ← expandPart run fields loose p
    return first ++ (← expandWord run fields loose ps)

def expandParameter (run : Script → Eval Bytes) (fields quoted : Bool) (name : String) :
    Treatment → Eval (List Piece)
  | .plain => do
    let s ← get
    if s.has 'u' && (parameter? s name).isNone then refuseUnset name "parameter not set"
    else return parameterPieces s fields quoted name
  | .length => do
    let s ← get
    match parameter? s name with
    | some value => return [pieceOf quoted (toString value.length)]
    | none =>
      if s.has 'u' then refuseUnset name "parameter not set" else return [pieceOf quoted "0"]
  | .fallback mode emptyToo word => do
    let s ← get
    let present := match parameter? s name with
      | some value => !(emptyToo && value.isEmpty)
      | none => false
    match mode with
    | .alternative => if present then expandWord run fields (!quoted) word else return [pieceOf quoted ""]
    | mode =>
      if present then return parameterPieces s fields quoted name
      else
        match mode with
        | .assign =>
          let text := textOf (joined (← expandWord run false false word))
          if isName name.toList then
            assignVariable name text
            return [pieceOf quoted text]
          else fail (name ++ ": bad variable name")
        | .refuse =>
          let text := textOf (joined (← expandWord run false false word))
          refuseUnset name
            (if word.isEmpty then "parameter not set" ++ if emptyToo then " or null" else "" else text)
        | _ => expandWord run fields (!quoted) word
  | .trim mode pattern => do
    let gs := joined (← expandWord run false false pattern)
    let s ← get
    match parameter? s name with
    | none => if s.has 'u' then refuseUnset name "parameter not set" else return [pieceOf quoted ""]
    | some value =>
      let cs := value.toList
      let trimmed := match mode with
        | .shortestFront => trimmedFront false gs cs
        | .longestFront => trimmedFront true gs cs
        | .shortestBack => trimmedBack false gs cs
        | .longestBack => trimmedBack true gs cs
      return [pieceOf quoted (String.ofList trimmed)]
  | .senseless => fail "Bad substitution"

end

def homeOf? (s : State) (user : String) : Option String :=
  match user with
  | "" => s.value? "HOME"
  | "root" => some "/root"
  | "nobody" => some "/nonexistent"
  | "daemon" => some "/usr/sbin"
  | "bin" => some "/bin"
  | _ => none

/-- Bare text that begins with the sign for a directory of a user. The name of
the user ends with a slash, or with the word. -/
def homeParts (s : State) (isLast : Bool) (cs : List Char) : List Part :=
  match cs with
  | '~' :: rest =>
    let user := rest.takeWhile (· != '/')
    let after := rest.drop user.length
    if after.isEmpty && !isLast then [.text false cs]
    else
      match homeOf? s (String.ofList user) with
      | some home =>
        .text true home.toList :: if after.isEmpty then [] else [.text false after]
      | none => [.text false cs]
  | _ => [.text false cs]

def withHome (s : State) : Word → Word
  | .text false cs :: parts => homeParts s parts.isEmpty cs ++ parts
  | w => w

def splitAtColons : List Char → List (List Char)
  | [] => [[]]
  | c :: cs =>
    match splitAtColons cs with
    | [] => [[c]]
    | piece :: more => if c == ':' then [] :: piece :: more else (c :: piece) :: more

def withHomes (s : State) (atFront : Bool) : Word → Word
  | [] => []
  | .text false cs :: parts =>
    let isLast := parts.isEmpty
    let pieces := splitAtColons cs
    let count := pieces.length
    let expanded := (pieces.zip (List.range count)).map fun (piece, i) =>
      if i == 0 && !atFront then [Part.text false piece]
      else homeParts s (isLast || i + 1 < count) piece
    let text := ([Part.text false [':']].intercalate expanded).filter fun
      | .text false [] => false
      | _ => true
    text ++ withHomes s false parts
  | p :: parts => p :: withHomes s false parts

def expandText (run : Script → Eval Bytes) (word : Word) : Eval String := do
  return textOf (joined (← expandWord run false false (withHome (← get) word)))

def expandValue (run : Script → Eval Bytes) (word : Word) : Eval String := do
  return textOf (joined (← expandWord run false false (withHomes (← get) true word)))

def expandPattern (run : Script → Eval Bytes) (word : Word) : Eval (List Glyph) := do
  return joined (← expandWord run false false (withHome (← get) word))

def expandFields (run : Script → Eval Bytes) (word : Word) : Eval (List String) := do
  let pieces ← expandWord run true false (withHome (← get) word)
  let s ← get
  let fields := fieldsOf (separators s) pieces
  return if s.has 'f' then fields.map textOf else fields.flatMap (glob s.files)

def expandAll (run : Script → Eval Bytes) : List Word → Eval (List String)
  | [] => return []
  | w :: ws => do
    let fields ← expandFields run w
    return fields ++ (← expandAll run ws)

end Retrial.Shell
