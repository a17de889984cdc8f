import Retrial.Utility.Source

/-!
# Columns

The tool that shows a child's script chosen bytes or fields of lines.
-/

set_option autoImplicit false

namespace Retrial.Utility

open Retrial.Shell Retrial.Text

abbrev Places := Nat × Option Nat

def readPlaces (field : Bool) (cs : List Char) : Except String Places :=
  let what := if field then "field" else "byte/character"
  let zero : Except String Places :=
    .error (if field then "fields are numbered from 1" else "byte/character positions are numbered from 1")
  let number (ds : List Char) : Except String Nat :=
    match (String.ofList ds).toNat? with
    | some n => .ok n
    | none => .error ("invalid " ++ what ++ (if field then " value " else " position ") ++ quoted (String.ofList cs))
  let front := cs.takeWhile (· != '-')
  match front, cs.drop front.length with
  | [], [] => zero
  | ds, [] => do
    let n ← number ds
    if n == 0 then zero else .ok (n, some n)
  | ds, _ :: last =>
    if last.contains '-' then
      .error (if field then "invalid field range" else "invalid byte or character range")
    else if ds.isEmpty && last.isEmpty then .error "invalid range with no endpoint: -"
    else do
      let n ← if ds.isEmpty then .ok 1 else number ds
      let m ← if last.isEmpty then .ok none else (number last).map some
      if n == 0 then zero
      else
        match m with
        | some m => if m < n then .error "invalid decreasing range" else .ok (n, some m)
        | none => .ok (n, none)

def readPlacesList (field : Bool) (word : String) : Except String (List Places) :=
  let separated := word.toList.map fun c => if c == ' ' || c == '\t' then ',' else c
  ((String.ofList separated).splitOn ",").mapM fun part => readPlaces field part.toList

def isChosen (ranges : List Places) (n : Nat) : Bool :=
  ranges.any fun (first, last) =>
    first ≤ n && last.all (n ≤ ·)

def beginsAt (ranges : List Places) (n : Nat) : Bool :=
  isChosen ranges n && ranges.any fun r => r.1 == n

def joinedBy (separator : List Char) : List (List Char) → List Char
  | [] => []
  | [cs] => cs
  | cs :: rest => cs ++ separator ++ joinedBy separator rest

def splitAll (separator : Char) (cs : List Char) : List (List Char) :=
  cs.foldr (fun c parts =>
    if c == separator then [] :: parts
    else
      match parts with
      | part :: rest => (c :: part) :: rest
      | [] => [[c]]) [[]]

def cutTable : OptionTable :=
  .ofText "b:c:d:f:nsz"
    [("bytes=", 'b'), ("characters=", 'c'), ("delimiter=", 'd'), ("fields=", 'f'), ("only-delimited", 's'),
      ("zero-terminated", 'z'), ("complement", '!'), ("output-delimiter=", '>')] 1

def cutLines (name : String) (args : List String) : Eval Nat :=
  withOptions cutTable name args fun o operands => do
    let lists := o.filter fun p => ['b', 'c', 'f'].contains p.1
    let delimiter := ((o.value? 'd').getD "\t").toList
    match lists with
    | [] => refuse name "you must specify a list of bytes, characters, or fields" 1
    | _ :: _ :: _ => refuse name "only one list may be specified" 1
    | [(letter, list)] =>
      let field := letter == 'f'
      if 1 < delimiter.length then refuse name "the delimiter must be a single character" 1
      else if !field && o.has 'd' then
        refuse name "an input delimiter may be specified only when operating on fields" 1
      else if !field && o.has 's' then
        refuse name
          "suppressing non-delimited lines makes sense\n\tonly when operating on fields" 1
      else
        match readPlacesList field list with
        | .error message => refuse name message 1
        | .ok ranges =>
          let chosen (n : Nat) : Bool := isChosen ranges n != o.has '!'
          let d := delimiter.headD '\x00'
          let lineEnd := if o.has 'z' then '\x00' else '\n'
          let between := (o.value? '>').map (·.toList)
          let numbered {α : Type} (xs : List α) : List (α × Nat) :=
            xs.zip ((List.range xs.length).map (· + 1))
          let shownPart (line : List Char) : Option (List Char) :=
            if field then
              let fields := splitAll d line
              if fields.length == 1 then if o.has 's' then none else some line
              else
                let kept := (numbered fields).filter fun p => chosen p.2
                some (joinedBy (between.getD [d]) (kept.map (·.1)))
            else
              match between with
              | none => some (((numbered line).filter fun p => chosen p.2).map (·.1))
              | some separator =>
                some (((numbered line).filter fun p => chosen p.2).flatMap fun p =>
                  (if 1 < p.2 && beginsAt ranges p.2 && ((List.range p.2).any fun n => 0 < n && chosen n)
                    then separator else []) ++ [p.1])
          forSources name 1 operands fun _ cs =>
            sayChars ((splitEnds lineEnd cs).flatMap fun line =>
              match shownPart line with
              | some part => part ++ [lineEnd]
              | none => [])

end Retrial.Utility
