import Retrial.Regex.Basic

/-!
# Scripts of edits

Edits that a child makes to one line after the other. A line is held in a working
space while the commands of a script, chosen by the places of lines or by what
they hold, change it, move parts of it to a second space, or write it.
-/

set_option autoImplicit false

namespace Retrial.Utility.Edit

structure Pattern where
  regex : Option Regex
  folds : Bool
  byLines : Bool

inductive Spot
  | line (number : Nat)
  | every (first step : Nat)
  | last
  | matching (pattern : Pattern)

inductive Finish
  | spot (spot : Spot)
  | after (count : Nat)
  | multiple (count : Nat)

structure Choice where
  start : Option Spot
  finish : Option Finish
  negated : Bool

inductive Casing
  | upper
  | lower
  | upperOne
  | lowerOne
  | stop
  deriving DecidableEq, Repr

inductive Piece
  | text (cs : List Char)
  | group (number : Nat)
  | casing (c : Casing)
  deriving Repr

/-- The replacement of what matches: which match is replaced first, whether all
that follow are too, and what is done when something was replaced. -/
structure Substitution where
  pattern : Pattern
  pieces : List Piece
  first : Nat
  all : Bool
  prints : Bool
  target : Option String

inductive Action
  | openBlock (stop : Nat)
  | closeBlock
  | label
  | comment
  | append (text : List Char)
  | insert (text : List Char)
  | change (text : List Char)
  | delete
  | deleteLine
  | next
  | nextAppend
  | print
  | printLine
  | hold
  | holdAppend
  | fetch
  | fetchAppend
  | exchange
  | number
  | title
  | list (width : Option Nat)
  | quit (status : Nat) (prints : Bool)
  | readFile (path : String)
  | readLine (path : String)
  | writeSpace (path : String)
  | writeLine (path : String)
  | substitute (s : Substitution)
  | replaceChars (pairs : List (Char × Char))
  | jump (goal : Option Nat)
  | jumpIf (goal : Option Nat)
  | jumpUnless (goal : Option Nat)
  | clear

structure Step where
  choice : Choice
  action : Action

abbrev Script := Array Step

end Retrial.Utility.Edit
