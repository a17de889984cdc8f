import Retrial.Diagnostics
import Retrial.Number.Numeral

/-!
# Filtering notes

A filter is a list of rules, each for the notes whose origin begins with some
text and which have certain fields. The most specific rule that fits a note
decides how important it has to be; a note that no rule fits is left out.
-/

set_option autoImplicit false

namespace Retrial.Diagnostics

/-- The least important severity that is shown, as its rank; zero shows nothing. -/
abbrev Level := Nat

structure FilterRule where
  origin : Option String
  fields : List String
  level : Level
  deriving DecidableEq, Repr

abbrev Filter := List FilterRule

def levelOf? (text : String) : Option Level :=
  match Number.readSigned 10 Number.maxWord64 text.toList with
  | .ok n => if n ≤ 5 then some n else none
  | .error _ =>
    [("", 1), ("error", 1), ("warn", 2), ("info", 3), ("debug", 4), ("trace", 5), ("off", 0)].lookup
      (String.ofList (text.toList.map Char.toLower))

def closedList? (inside : List Char) : Option (List Char) :=
  let rec strip : List Char → List Char
    | ']' :: '\x7d' :: cs => strip cs
    | cs => cs
  match inside.reverse with
  | ']' :: '\x7d' :: cs => some (strip cs).reverse
  | _ => none

def fieldsOf? (text : String) : Option (String × List String) :=
  match text.splitOn "[\x7b" with
  | [origin] => some (origin, [])
  | [origin, inside] =>
    (closedList? inside.toList).map fun names =>
      (origin, ((String.ofList names).splitOn ",").filter (!·.isEmpty))
  | _ => none

def ruleOf? (text : String) : Option FilterRule :=
  match text.splitOn "=" with
  | [bare] =>
    match levelOf? bare with
    | some level => some ⟨none, [], level⟩
    | none => some ⟨some bare, [], 5⟩
  | [left, right] => do
    let (origin, fields) ← fieldsOf? left
    let level ← levelOf? right
    return ⟨some origin, fields, level⟩
  | _ => none

def filterOf? (text : String) : Option Filter := (text.splitOn ",").mapM ruleOf?

def FilterRule.fits (r : FilterRule) (n : Note) : Bool :=
  (match r.origin with
    | some origin => n.origin.startsWith origin
    | none => true) &&
  r.fields.all fun f => f == "message" || n.fields.any (·.1 == f)

/-- Whether a rule counts before another, if both fit: the longer origin decides,
then the number of fields, and then their names in the order of text. -/
def FilterRule.precedes (a b : FilterRule) : Bool :=
  let size (r : FilterRule) : Option Nat := r.origin.map String.utf8ByteSize
  if size a != size b then
    match size a, size b with
    | some m, some n => n < m
    | some _, none => true
    | none, _ => false
  else if a.fields.length != b.fields.length then b.fields.length < a.fields.length
  else b.fields < a.fields

/-- The rule that decides on a note. Of two rules for the same notes the later one counts. -/
def deciding (n : Note) : Filter → Option FilterRule
  | [] => none
  | r :: rest =>
    match deciding n rest with
    | none => if r.fits n then some r else none
    | some s => if r.fits n && r.precedes s then some r else some s

def shows (f : Filter) (n : Note) : Bool :=
  match deciding n f with
  | some r => n.severity.rank ≤ r.level
  | none => false

def standardFilter (verbose : Bool) : Filter := [⟨none, [], if verbose then 4 else 3⟩]

/-- The filter that a variable asks for; one that cannot be read is ignored. -/
def filterFor (verbose : Bool) (value : Option String) : Filter :=
  match value with
  | some text =>
    if text.isEmpty then standardFilter verbose
    else (filterOf? text).getD (standardFilter verbose)
  | none => standardFilter verbose

end Retrial.Diagnostics
