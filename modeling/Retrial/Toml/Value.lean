/-!
# Settings documents as values

A settings document is a table of values under keys, and a value may be a
table again. How a table came about decides whether later lines may add to it,
so a table keeps its form. Numbers with a fraction, truth values, dates and what
merely looks like a number are only known to be values: nothing is configured by
them.
-/

set_option autoImplicit false

namespace Retrial.Toml

/-- How a table came about: by its own header, as a step of a longer header, by
the dots of a key, or written out in braces. -/
inductive Form
  | headed
  | implied
  | dotted
  | inline
  deriving DecidableEq, Repr

/-- A value. The rows of `rows` are tables which headers add one by one, while
an `array` is complete where it is written. -/
inductive Value
  | string (text : String)
  | integer (n : Int)
  | scalar
  | array (items : List Value)
  | rows (items : List (List (String × Value)))
  | table (form : Form) (entries : List (String × Value))

abbrev Entries := List (String × Value)

namespace Entries

def lookup? (key : String) : Entries → Option Value
  | [] => none
  | (k, v) :: es => if k == key then some v else lookup? key es

def put (key : String) (v : Value) : Entries → Entries
  | [] => [(key, v)]
  | (k, w) :: es => if k == key then (k, v) :: es else (k, w) :: put key v es

def lastRow? (rows : List Entries) : Option (List Entries × Entries) :=
  rows.getLast?.map (rows.dropLast, ·)

/-- Assigns a value to a dotted key. Every part but the last names a table that
dots created, or a new one; a table with a header of its own is closed to dots,
and one that a longer header implies can only be passed through. -/
def assign (v : Value) (es : Entries) (key : String) : List String → Option Entries
  | [] => match es.lookup? key with
    | none => some (es.put key v)
    | some _ => none
  | next :: path => match es.lookup? key with
    | none => (assign v [] next path).map fun inner => es.put key (.table .dotted inner)
    | some (.table .dotted inner) =>
      (assign v inner next path).map fun inner => es.put key (.table .dotted inner)
    | some (.table .implied inner) =>
      if path.isEmpty then none
      else (assign v inner next path).map fun inner => es.put key (.table .implied inner)
    | some (.rows rows) =>
      if path.isEmpty then none
      else do
        let (before, last) ← lastRow? rows
        let last ← assign v last next path
        return es.put key (.rows (before ++ [last]))
    | some _ => none

def assignAll (es : Entries) : List ((String × List String) × Value) → Option Entries
  | [] => some es
  | ((key, path), v) :: more => do assignAll (← es.assign v key path) more

/-- Changes what stands at the path of a header. The steps on the way may be
any tables but those written in braces; a step that is missing is implied. -/
def alter (f : Option Value → Option Value) (es : Entries) (key : String) :
    List String → Option Entries
  | [] => (f (es.lookup? key)).map (es.put key ·)
  | next :: path => match es.lookup? key with
    | none => (alter f [] next path).map fun inner => es.put key (.table .implied inner)
    | some (.table form inner) =>
      if form = .inline then none
      else (alter f inner next path).map fun inner => es.put key (.table form inner)
    | some (.rows rows) => do
      let (before, last) ← lastRow? rows
      let last ← alter f last next path
      return es.put key (.rows (before ++ [last]))
    | some _ => none

end Entries

end Retrial.Toml
