/-!
# Scripts

The child's side of a run, as far as it is a script: the command language in which
test binaries and their wrappers may be written, as a tree. A script is bytes:
every character in it stands for one byte. A word is a list of parts, some of
which are only known when the word is expanded. A part that stands between quotes
is never split into fields.
-/

set_option autoImplicit false

namespace Retrial.Shell

inductive Trim
  | shortestFront
  | longestFront
  | shortestBack
  | longestBack
  deriving DecidableEq, Repr

inductive Fallback
  | use
  | assign
  | refuse
  | alternative
  deriving DecidableEq, Repr

inductive Opening
  | read
  | write
  | overwrite
  | append
  | readWrite
  deriving DecidableEq, Repr

mutual

inductive Treatment
  | plain
  | length
  | fallback (mode : Fallback) (emptyToo : Bool) (word : List Part)
  | trim (mode : Trim) (pattern : List Part)
  | senseless

inductive Part
  | text (quoted : Bool) (chars : List Char)
  | parameter (quoted : Bool) (name : String) (treatment : Treatment)
  | arithmetic (quoted : Bool) (expression : List Part)
  | substitution (quoted : Bool) (script : List Item)

/-- Where a stream of a command goes to or comes from. The number of a here
document tells it from the others of its command until its body is read. -/
inductive Redirect
  | file (stream : Nat) (opening : Opening) (target : List Part)
  | copy (stream : Nat) (source : List Part)
  | here (stream : Nat) (number : Nat) (body : List Part)

inductive Command
  | simple (line : Nat) (assignments : List (String × List Part)) (words : List (List Part))
      (redirects : List Redirect)
  | redirected (line : Nat) (body : Command) (redirects : List Redirect)
  | group (body : List Item)
  | subshell (line : Nat) (body : List Item)
  | conditional (branches : List (List Item × List Item)) (otherwise : List Item)
  | loop (goal : Bool) (test body : List Item)
  | each (line : Nat) (name : String) (words : Option (List (List Part))) (body : List Item)
  | choice (line : Nat) (word : List Part) (arms : List (List (List Part) × List Item))
  | definition (line : Nat) (name : String) (body : Command)

inductive Item
  | pipeline (negated : Bool) (commands : List Command)
  | both (first second : Item)
  | either (first second : Item)
  | background (item : Item)

end

abbrev Word := List Part

abbrev Script := List Item

instance : Inhabited Command := ⟨.group []⟩

abbrev Documents := List (Nat × Word)

def Redirect.filled (documents : Documents) : Redirect → Redirect
  | .here stream number body => .here stream number ((documents.lookup number).getD body)
  | r => r

mutual

def Command.filled (documents : Documents) : Command → Command
  | .simple line assignments words redirects =>
    .simple line assignments words (redirects.map (·.filled documents))
  | .redirected line body redirects =>
    .redirected line (body.filled documents) (redirects.map (·.filled documents))
  | .group body => .group (Item.filledAll documents body)
  | .subshell line body => .subshell line (Item.filledAll documents body)
  | .conditional branches otherwise =>
    .conditional (Item.filledBranches documents branches) (Item.filledAll documents otherwise)
  | .loop goal test body =>
    .loop goal (Item.filledAll documents test) (Item.filledAll documents body)
  | .each line name words body => .each line name words (Item.filledAll documents body)
  | .choice line word arms => .choice line word (Item.filledArms documents arms)
  | .definition line name body => .definition line name (body.filled documents)

def Item.filled (documents : Documents) : Item → Item
  | .pipeline negated commands => .pipeline negated (Command.filledAll documents commands)
  | .both first second => .both (first.filled documents) (second.filled documents)
  | .either first second => .either (first.filled documents) (second.filled documents)
  | .background item => .background (item.filled documents)

def Command.filledAll (documents : Documents) : List Command → List Command
  | [] => []
  | c :: cs => c.filled documents :: Command.filledAll documents cs

def Item.filledAll (documents : Documents) : List Item → List Item
  | [] => []
  | i :: is => i.filled documents :: Item.filledAll documents is

def Item.filledBranches (documents : Documents) :
    List (List Item × List Item) → List (List Item × List Item)
  | [] => []
  | (test, body) :: more =>
    (Item.filledAll documents test, Item.filledAll documents body) ::
      Item.filledBranches documents more

def Item.filledArms (documents : Documents) :
    List (List (List Part) × List Item) → List (List (List Part) × List Item)
  | [] => []
  | (patterns, body) :: more =>
    (patterns, Item.filledAll documents body) :: Item.filledArms documents more

end

end Retrial.Shell
