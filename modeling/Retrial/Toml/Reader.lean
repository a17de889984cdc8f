import Retrial.Toml.Document
import Retrial.Toml.Quoted

/-!
# Reading settings documents

The text of a document is read line by line into sections. A line holds a
header, or a key and its value; inside brackets and braces a value may run over
several lines, with comments between its parts and a comma behind the last.
Brackets and braces may stand inside one another only so deep.
-/

set_option autoImplicit false

namespace Retrial.Toml

def dropSpaces (cs : List Char) : List Char := cs.dropWhile isSpace

def dropComment (cs : List Char) : List Char :=
  match cs with
  | '#' :: cs => cs.dropWhile isPlain
  | cs => cs

def afterLine? (cs : List Char) : Option (List Char) :=
  match dropComment (dropSpaces cs) with
  | [] => some []
  | cs => afterNewline? cs

def dropFiller : Nat → List Char → List Char
  | 0, cs => cs
  | fuel + 1, cs =>
    match dropComment (dropSpaces cs) with
    | [] => []
    | ds =>
      match afterNewline? ds with
      | some es => dropFiller fuel es
      | none => ds

def isBareKeyChar (c : Char) : Bool := isDigit 36 c || c == '_' || c == '-'

def takeKeyPart? (cs : List Char) : Option (String × List Char) :=
  match cs with
  | '"' :: _ => if cs.take 3 == ['"', '"', '"'] then none else takeText? '"' cs
  | '\'' :: _ => if cs.take 3 == ['\'', '\'', '\''] then none else takeText? '\'' cs
  | _ =>
    match cs.takeWhile isBareKeyChar with
    | [] => none
    | part => some (String.ofList part, cs.dropWhile isBareKeyChar)

/-- How deep brackets and braces may stand inside one another, and how many parts
a key may have. -/
def maxDepth : Nat := 80

def takeKeyWithin? : Nat → List Char → Option (Key × List Char)
  | 0, _ => none
  | parts + 1, cs => do
    let (part, cs) ← takeKeyPart? (dropSpaces cs)
    match dropSpaces cs with
    | '.' :: cs =>
      let ((next, path), cs) ← takeKeyWithin? parts cs
      return ((part, next :: path), cs)
    | cs => return ((part, []), cs)

def takeKey? (cs : List Char) : Option (Key × List Char) := takeKeyWithin? maxDepth cs

def takeAssignedKey? (cs : List Char) : Option (Key × List Char) :=
  match takeKey? cs with
  | some (key, '=' :: cs) => some (key, dropSpaces cs)
  | _ => none

def takeInlineKey? (cs : List Char) : Option (Key × List Char) := do
  let (key, cs) ← takeKey? cs
  match dropFiller cs.length cs with
  | '=' :: cs => some (key, dropFiller cs.length cs)
  | _ => none

mutual

/-- A value; `depth` is how many brackets and braces may still be opened for it. -/
def takeValue? (depth : Nat) : Nat → List Char → Option (Value × List Char)
  | 0, _ => none
  | fuel + 1, cs =>
    match cs, depth with
    | '"' :: _, _ => (takeText? '"' cs).map fun (text, rest) => (.string text, rest)
    | '\'' :: _, _ => (takeText? '\'' cs).map fun (text, rest) => (.string text, rest)
    | '[' :: cs, depth + 1 =>
      (takeItems? depth fuel cs).map fun (items, rest) => (.array items, rest)
    | '\x7b' :: cs, depth + 1 => do
      let (lines, rest) ← takeInline? depth fuel cs
      let es ← Entries.assignAll [] lines
      return (.table .inline es, rest)
    | _, _ =>
      let (word, rest) := takeScalar cs.length cs
      (scalar? word).map (·, rest)

def takeItems? (depth : Nat) : Nat → List Char → Option (List Value × List Char)
  | 0, _ => none
  | fuel + 1, cs =>
    match dropFiller cs.length cs with
    | ']' :: cs => some ([], cs)
    | cs => do
      let (item, cs) ← takeValue? depth fuel cs
      match dropFiller cs.length cs with
      | ',' :: cs =>
        let (items, cs) ← takeItems? depth fuel cs
        return (item :: items, cs)
      | ']' :: cs => return ([item], cs)
      | _ => none

def takeInline? (depth : Nat) : Nat → List Char → Option (List (Key × Value) × List Char)
  | 0, _ => none
  | fuel + 1, cs =>
    match dropFiller cs.length cs with
    | '\x7d' :: cs => some ([], cs)
    | cs => do
      let (key, cs) ← takeInlineKey? cs
      let (v, cs) ← takeValue? depth fuel cs
      match dropFiller cs.length cs with
      | ',' :: cs =>
        let (lines, cs) ← takeInline? depth fuel cs
        return ((key, v) :: lines, cs)
      | '\x7d' :: cs => return ([(key, v)], cs)
      | _ => none

end

def takeHeader? (cs : List Char) : Option (Header × List Char) :=
  match cs with
  | '[' :: cs =>
    match takeKey? cs with
    | some (key, ']' :: ']' :: cs) => some (.row key, cs)
    | _ => none
  | cs =>
    match takeKey? cs with
    | some (key, ']' :: cs) => some (.table key, cs)
    | _ => none

inductive Statement
  | header (h : Header)
  | assignment (key : Key) (v : Value)

def takeStatement? (cs : List Char) : Option (Statement × List Char) := do
  match cs with
  | '[' :: cs =>
    let (h, cs) ← takeHeader? cs
    return (.header h, cs)
  | cs =>
    let (key, cs) ← takeAssignedKey? cs
    let (v, cs) ← takeValue? maxDepth (2 * cs.length + 2) cs
    return (.assignment key v, cs)

def takeStatements? : Nat → List Char → Option (List Statement)
  | 0, _ => none
  | fuel + 1, cs =>
    match dropFiller cs.length cs with
    | [] => some []
    | cs => do
      let (said, cs) ← takeStatement? cs
      let cs ← afterLine? cs
      return said :: (← takeStatements? fuel cs)

def Document.ofStatements : List Statement → Document
  | [] => ⟨[], []⟩
  | .assignment key v :: more =>
    let d := ofStatements more
    ⟨(key, v) :: d.opening, d.sections⟩
  | .header h :: more =>
    let d := ofStatements more
    ⟨[], ⟨h, d.opening⟩ :: d.sections⟩

def read? (cs : List Char) : Option Entries := do
  let cs := if cs.head? == some '\uFEFF' then cs.drop 1 else cs
  let statements ← takeStatements? (cs.length + 1) cs
  (Document.ofStatements statements).entries?

end Retrial.Toml
