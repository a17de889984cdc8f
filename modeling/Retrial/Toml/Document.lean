import Retrial.Toml.Value

/-!
# Documents as sections

A document is a list of sections: the lines under no header, and then the lines
under each header. A section is laid into the document where its header says;
a table takes one header only, a table of rows takes a row from each.
-/

set_option autoImplicit false

namespace Retrial.Toml

abbrev Key := String × List String

inductive Header
  | table (key : Key)
  | row (key : Key)
  deriving DecidableEq, Repr

structure Section where
  header : Header
  lines : List (Key × Value)

structure Document where
  opening : List (Key × Value)
  sections : List Section

def openTable (lines : List (Key × Value)) : Option Value → Option Value
  | none => (Entries.assignAll [] lines).map (.table .headed)
  | some (.table .implied es) => (Entries.assignAll es lines).map (.table .headed)
  | some _ => none

def addRow (lines : List (Key × Value)) : Option Value → Option Value
  | none => (Entries.assignAll [] lines).map fun es => .rows [es]
  | some (.rows rows) => (Entries.assignAll [] lines).map fun es => .rows (rows ++ [es])
  | some _ => none

def Section.layInto (s : Section) (es : Entries) : Option Entries :=
  match s.header with
  | .table (key, path) => es.alter (openTable s.lines) key path
  | .row (key, path) => es.alter (addRow s.lines) key path

/-- The table a document describes, if no line contradicts an earlier one. -/
def Document.entries? (d : Document) : Option Entries := do
  let es ← Entries.assignAll [] d.opening
  d.sections.foldlM (fun es s => s.layInto es) es

end Retrial.Toml
