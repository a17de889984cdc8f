import Retrial.Attempt
import Retrial.Options

/-!
# Reading the command line

Arguments are read from the left until the test command begins. The value of an
option is judged when the next option or the test command comes up, so the
leftmost offence decides. An option may be given once. Variables speak only for
options that were not given, and what contradicts itself or is incomplete is
found last.
-/

set_option autoImplicit false

namespace Retrial.Options

open Retrial.Number

inductive ArgForm
  | separator
  | long (o : OptionName) (attached : Option String)
  | shorts (os : List OptionName)
  | word
  deriving DecidableEq, Repr

def splitAttached (cs : List Char) : String × Option String :=
  match cs.dropWhile (· != '=') with
  | [] => (String.ofList cs, none)
  | _ :: value => (String.ofList (cs.takeWhile (· != '=')), some (String.ofList value))

/-- An argument that looks like an option but is none is a word like any other. -/
def formOf (arg : String) : ArgForm :=
  match arg.toList with
  | '-' :: '-' :: [] => .separator
  | '-' :: '-' :: cs =>
    let (name, attached) := splitAttached cs
    match OptionName.ofLong? name with
    | some o => .long o attached
    | none => .word
  | '-' :: c :: cs =>
    match (c :: cs).mapM OptionName.ofShort? with
    | some os => .shorts os
    | none => .word
  | _ => .word

def readCount (text : String) : Except String Nat :=
  match readInteger maxInteger64 text.toList with
  | .error fault => .error fault.message
  | .ok n =>
    if 0 ≤ n && n ≤ (maxWord32 : Int) then .ok n.toNat
    else .error (toString n ++ " is not in 0..=" ++ toString maxWord32)

def countOf (o : OptionName) (text : String) : Except OptionFault Nat :=
  (readCount text).mapError (.valueRefused o text)

def timeoutOf (text : String) : Except OptionFault Duration :=
  match Duration.readTimeout text with
  | .ok d => .ok d
  | .error fault =>
    .error (if fault.isOverflow then .timeoutOverflow fault.message
      else .valueRefused .timeout text fault.message)

def flagOf? : String → Option Bool
  | "true" => some true
  | "false" => some false
  | _ => none

def assign (opts : Options) (o : OptionName) (text : String) : Except OptionFault Options :=
  match o with
  | .verbose =>
    match flagOf? text with
    | some b => .ok { opts with verbose := b }
    | none => .error (.valueUnknown o text)
  | .noExtraArgs =>
    match flagOf? text with
    | some b => .ok { opts with noExtraArgs := b }
    | none => .error (.valueUnknown o text)
  | .color =>
    match ColorChoice.ofName? text with
    | some c => .ok { opts with color := c }
    | none => .error (.valueUnknown o text)
  | .configFile => .ok { opts with configFile := some text }
  | .profile => .ok { opts with profile := some text }
  | .maxRepeats => (countOf o text).map fun n => { opts with maxRepeats := some n }
  | .passesNeeded => (countOf o text).map fun n => { opts with passesNeeded := some n }
  | .crashReruns => (countOf o text).map fun n => { opts with crashReruns := some n }
  | .timeout => (timeoutOf text).map fun d => { opts with timeout := some d }
  | .logDir => .ok { opts with logDir := text }
  | .existingLog => .ok { opts with existingLog := some text }
  | .help => .error (.helpAsked true)
  | .version => .error .versionAsked

structure Pending where
  option : OptionName
  value : Option String
  deriving DecidableEq, Repr

structure Draft where
  options : Options
  given : List OptionName
  pending : Option Pending
  deriving DecidableEq, Repr

namespace Draft

def start : Draft := ⟨.standard, [], none⟩

def enter (d : Draft) (o : OptionName) (text : String) : Except OptionFault Draft :=
  if d.given.contains o then .error (.repeated o)
  else (assign d.options o text).map fun opts => { d with options := opts, given := d.given ++ [o] }

def settle (d : Draft) : Except OptionFault Draft :=
  match d.pending with
  | none => .ok d
  | some ⟨o, none⟩ => .error (.valueMissing o)
  | some ⟨o, some text⟩ => { d with pending := none }.enter o text

def enterFlag (d : Draft) (o : OptionName) : Except OptionFault Draft :=
  d.settle.bind fun d => d.enter o "true"

/-- Enters flags that are named by single letters; such a one asks for less help. -/
def enterFlags (d : Draft) : List OptionName → Except OptionFault Draft
  | [] => .ok d
  | .help :: _ => d.settle.bind fun _ => .error (.helpAsked false)
  | o :: os => (d.enterFlag o).bind fun d => d.enterFlags os

/-- The offence of a flag with a value. It comes before whatever is wrong with a
pending option, unless reading that option's value cannot be finished at all. -/
def unneeded (d : Draft) (o : OptionName) (text : String) : OptionFault :=
  match d.settle with
  | .error (.timeoutOverflow message) => .timeoutOverflow message
  | _ => .valueUnneeded o text d.given

def enterLong (d : Draft) (o : OptionName) : Option String → Except OptionFault Draft
  | some text =>
    if o.takesValue then d.settle.bind fun d => d.enter o text else .error (d.unneeded o text)
  | none =>
    if o.takesValue then d.settle.map fun d => { d with pending := some ⟨o, none⟩ }
    else d.enterFlag o

def awaiting? (d : Draft) : Option OptionName :=
  match d.pending with
  | some ⟨o, none⟩ => some o
  | _ => none

end Draft

def readArgs (d : Draft) : List String → Except OptionFault (Draft × List String)
  | [] => d.settle.map (·, [])
  | arg :: args =>
    match formOf arg with
    | .separator => d.settle.map (·, args)
    | .long o attached => (d.enterLong o attached).bind fun d => readArgs d args
    | .shorts os => (d.enterFlags os).bind fun d => readArgs d args
    | .word =>
      match d.awaiting? with
      | some o => readArgs { d with pending := some ⟨o, some arg⟩ } args
      | none => d.settle.map (·, arg :: args)

def readVariables (env : Environment) (d : Draft) : List OptionName → Except OptionFault Draft
  | [] => .ok d
  | o :: os =>
    match o.environmentName?.bind env.get? with
    | some text =>
      if d.given.contains o then readVariables env d os
      else (d.enter o text).bind fun d => readVariables env d os
    | none => readVariables env d os

def conflict? (given : List OptionName) : Option (OptionName × OptionName) :=
  match given.filter fun o => o == .noExtraArgs || o == .existingLog with
  | o :: other :: _ => some (o, other)
  | _ => none

def read (env : Environment) (args : List String) : Except OptionFault Options := do
  let (d, testArgs) ← readArgs .start args
  let d ← readVariables env d OptionName.all
  match conflict? d.given with
  | some (o, other) => .error (.conflicting o other d.given)
  | none =>
    if testArgs.isEmpty then .error (.testArgsMissing d.given)
    else .ok { d.options with testArgs := testArgs }

end Retrial.Options
