import Retrial.Number.Decimal
import Retrial.Utility.Source

/-!
# Intervals of time

How tools of the child's side are told how long to wait: a number that may have a
fraction, and a letter for its unit.
-/

set_option autoImplicit false

namespace Retrial.Utility

open Retrial.Shell

def interval? (text : String) : Option Nat :=
  let cs := text.toList
  let (digits, unit) : List Char × Nat := match cs.getLast? with
    | some 's' => (cs.dropLast, 1)
    | some 'm' => (cs.dropLast, 60)
    | some 'h' => (cs.dropLast, 3600)
    | some 'd' => (cs.dropLast, 86400)
    | _ => (cs, 1)
  match Number.readLiteral digits with
  | some (.number false (.finite v)) =>
    some (Number.roundHalfEven (v.numerator * 1000000000 * unit) v.denominator)
  | some (.number false .infinite) => some (2 ^ 128)
  | _ => none

def sleep (name : String) (args : List String) : Eval Nat :=
  withOptions (.ofText "" [] 1) name args fun _ operands => do
    match operands, operands.filter fun w => (interval? w).isNone with
    | [], _ => refuse name "missing operand" 1
    | operands, [] =>
      pause ((operands.filterMap interval?).foldl (· + ·) 0)
      return 0
    | _, wrong =>
      wrong.forM fun w => tell name ("invalid time interval " ++ quoted w)
      complain ("Try '" ++ name ++ " --help' for more information.\n")
      return 1

end Retrial.Utility
