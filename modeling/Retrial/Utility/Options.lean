import Retrial.Utility.Quoted
import Retrial.Shell.Tool

/-!
# Options of tools

How the tools of the child's side read what stands behind their names: letters
behind a dash, words behind two, and operands. Options may stand behind operands,
unless a tool wants them in front; words may be cut short as long as one option is
meant.
-/

set_option autoImplicit false

namespace Retrial.Utility

open Retrial.Shell

inductive Taking
  | nothing
  | value
  | maybe
  deriving DecidableEq, Repr

/-- The options that a tool knows, the status it ends with on others, and
whether they have to stand in front. -/
structure OptionTable where
  letters : List (Char × Taking)
  words : List (String × Taking × Char)
  trouble : Nat
  inFront : Bool

abbrev Chosen := List (Char × String)

namespace Chosen

def has (o : Chosen) (letter : Char) : Bool := o.any (·.1 == letter)

def value? (o : Chosen) (letter : Char) : Option String :=
  ((o.filter (·.1 == letter)).getLast?).map (·.2)

def values (o : Chosen) (letter : Char) : List String := (o.filter (·.1 == letter)).map (·.2)

def last? (o : Chosen) (letters : List Char) : Option Char :=
  ((o.filter fun p => letters.contains p.1).getLast?).map (·.1)

end Chosen

namespace OptionTable

/-- A table of letters: a colon follows those that take a value, two follow
those that may. -/
def readLetters : List Char → List (Char × Taking)
  | c :: ':' :: ':' :: cs => (c, .maybe) :: readLetters cs
  | c :: ':' :: cs => (c, .value) :: readLetters cs
  | c :: cs => (c, .nothing) :: readLetters cs
  | [] => []

def ofText (letters : String) (words : List (String × Char)) (trouble : Nat) : OptionTable where
  letters := readLetters letters.toList
  words := words.map fun (word, letter) =>
    if word.endsWith "[=]" then ((word.dropEnd 3).toString, .maybe, letter)
    else if word.endsWith "=" then ((word.dropEnd 1).toString, .value, letter)
    else (word, .nothing, letter)
  trouble := trouble
  inFront := false

def takeLetters (t : OptionTable) : List Char → List String → Except String (Chosen × List String)
  | [], args => .ok ([], args)
  | c :: cs, args =>
    match t.letters.lookup c with
    | none => .error ("invalid option -- '" ++ String.singleton c ++ "'")
    | some .nothing => (t.takeLetters cs args).map fun (o, args) => ((c, "") :: o, args)
    | some .maybe => .ok ([(c, String.ofList cs)], args)
    | some .value =>
      if !cs.isEmpty then .ok ([(c, String.ofList cs)], args)
      else
        match args with
        | value :: args => .ok ([(c, value)], args)
        | [] => .error ("option requires an argument -- '" ++ String.singleton c ++ "'")

/-- The options that a word may stand for: the one of that name, or all that
begin with it. -/
def meant (t : OptionTable) (word : String) : List (String × Taking × Char) :=
  match t.words.filter (·.1 == word) with
  | [] => t.words.filter fun w => w.1.startsWith word
  | ws => ws

def takeWord (t : OptionTable) (word : String) (args : List String) :
    Except String (Chosen × List String) :=
  let name := String.ofList (word.toList.takeWhile (· != '='))
  let value : Option String :=
    if name.length < word.length then some (word.drop (name.length + 1)).toString else none
  match t.meant name with
  | [] => .error ("unrecognized option '--" ++ word ++ "'")
  | (full, taking, letter) :: others =>
    if others.any fun w => w.2 != (taking, letter) then
      .error ("option '--" ++ word ++ "' is ambiguous; possibilities:" ++
        String.join ((full :: others.map (·.1)).map fun w => " '--" ++ w ++ "'"))
    else
      match taking, value, args with
      | .nothing, some _, _ => .error ("option '--" ++ full ++ "' doesn't allow an argument")
      | .nothing, none, args => .ok ([(letter, "")], args)
      | .maybe, value, args => .ok ([(letter, value.getD "")], args)
      | .value, some v, args => .ok ([(letter, v)], args)
      | .value, none, v :: args => .ok ([(letter, v)], args)
      | .value, none, [] => .error ("option '--" ++ full ++ "' requires an argument")

def read (t : OptionTable) : Nat → List String → Except String (Chosen × List String)
  | 0, args => .ok ([], args)
  | _, [] => .ok ([], [])
  | fuel + 1, w :: args => do
    if w == "--" then return ([], args)
    else if w == "-" || !w.startsWith "-" then
      if t.inFront then return ([], w :: args)
      else
        let (o, operands) ← t.read fuel args
        return (o, w :: operands)
    else
      let (chosen, args) ←
        if w.startsWith "--" then t.takeWord (w.drop 2).toString args
        else t.takeLetters (w.drop 1).toString.toList args
      let (o, operands) ← t.read fuel args
      return (chosen ++ o, operands)

end OptionTable

def tell (name message : String) : Eval Unit := complain (name ++ ": " ++ message ++ "\n")

def refuse (name message : String) (status : Nat) : Eval Nat := do
  tell name message
  complain ("Try '" ++ name ++ " --help' for more information.\n")
  return status

def withOptions (t : OptionTable) (name : String) (args : List String)
    (body : Chosen → List String → Eval Nat) : Eval Nat :=
  match t.read (args.length + 1) args with
  | .ok (o, operands) => body o operands
  | .error message => refuse name message t.trouble

end Retrial.Utility
