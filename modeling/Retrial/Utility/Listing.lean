import Retrial.Utility.Tree

/-!
# Listings

What a child can be told of files without reading them: the names in directories,
sizes and permissions.
-/

set_option autoImplicit false

namespace Retrial.Utility

open Retrial.Shell Retrial.Text

def listTable : OptionTable :=
  .ofText "1aAbBcdDfFgGhHiIklLnNopqQrRsStTuUvw:XZ"
    [("all", 'a'), ("almost-all", 'A'), ("classify[=]", 'F'), ("directory", 'd'), ("recursive", 'R'),
      ("reverse", 'r'), ("color[=]", '%'), ("no-group", 'G'), ("file-type", '/'), ("group-directories-first", '^')] 2

def entrySize : Entry → Nat
  | .directory => 4096
  | .file content _ => content.length
  | .link target => target.utf8ByteSize

def entryMode : Entry → Nat
  | .directory => 0o755
  | .file _ mode => mode
  | .link _ => 0o777

def modeText (e : Entry) : String :=
  let kind := match e with
    | .directory => "d"
    | .file _ _ => "-"
    | .link _ => "l"
  kind ++ modeLetters (entryMode e)

structure Listing where
  hidden : Bool
  dots : Bool
  reversed : Bool
  bySize : Bool
  unsorted : Bool
  marks : Option Char
  long : Bool
  quotes : Bool

def Listing.mark (l : Listing) (e : Entry) : String :=
  match l.marks, e with
  | some _, .directory => "/"
  | some 'F', .link _ => "@"
  | some '/', .link _ => "@"
  | some 'F', .file _ mode => if mode &&& 0o111 != 0 then "*" else ""
  | _, _ => ""

def Listing.sorted (l : Listing) (names : List (String × Entry)) : List (String × Entry) :=
  let byName := if l.unsorted then names else names.mergeSort fun a b => a.1 ≤ b.1
  let ordered := if l.bySize then byName.mergeSort fun a b => entrySize b.2 ≤ entrySize a.2 else byName
  if l.reversed && !l.unsorted then ordered.reverse else ordered

def Listing.rows (l : Listing) (names : List (String × Entry)) : List String :=
  let named (n : String × Entry) : String :=
    (if l.quotes then "\"" ++ n.1 ++ "\"" else n.1) ++ l.mark n.2
  if l.long then
    let width := (names.map fun n => (toString (entrySize n.2)).length).foldl max 1
    names.map fun n =>
      let arrow := match n.2 with
        | .link target => " -> " ++ octets target
        | _ => ""
      let count := if n.2 == .directory then "2" else "1"
      modeText n.2 ++ " " ++ count ++ " root root " ++ padLeft width (toString (entrySize n.2)) ++ " Jan  1 00:00 " ++
        named n ++ arrow
  else names.map named

def Listing.namesIn (l : Listing) (files : Files) (place : Place) : List (String × Entry) :=
  let inside := (files.namesIn place).map fun n =>
    (octets n, (files.entryAt? (place ++ [n])).getD .directory)
  let dots := if l.dots then [(".", Entry.directory), ("..", Entry.directory)] else []
  dots ++ inside.filter fun n => l.hidden || l.dots || !n.1.startsWith "."

def Listing.directory (l : Listing) (files : Files) (deep : Bool) :
    Nat → String → Place → List (String × List String)
  | 0, path, place => [(path, l.rows (l.sorted (l.namesIn files place)))]
  | fuel + 1, path, place =>
    let names := l.sorted (l.namesIn files place)
    let total := if l.long then ["total 0"] else []
    (path, total ++ l.rows names) ::
      if deep then
        names.flatMap fun (n, e) =>
          if e == .directory && n != "." && n != ".." then
            l.directory files deep fuel ((if path.endsWith "/" then path else path ++ "/") ++ n) (place ++ [spelled n])
          else []
      else []

def listFiles (name : String) (args : List String) : Eval Nat :=
  withOptions listTable name args fun o operands => do
    let l : Listing :=
      { hidden := o.has 'a' || o.has 'A' || o.has 'f'
        dots := o.last? ['a', 'A'] == some 'a' || o.has 'f'
        reversed := o.has 'r'
        bySize := o.has 'S'
        unsorted := o.has 'U' || o.has 'f'
        marks := o.last? ['F', 'p', '/']
        long := o.has 'l' || o.has 'n' || o.has 'g' || o.has 'o'
        quotes := o.has 'Q' }
    let files := (← get).files
    let found := (if operands.isEmpty then ["."] else operands).map fun path =>
      let keepsLink := (l.long || o.has 'd' || l.marks == some 'F') && !path.endsWith "/"
      let entry := if keepsLink then entryOf files path else
        match targetOf files path with
        | .ok e => .ok e
        | .error _ => entryOf files path
      (path, entry)
    let refused := found.filterMap fun (path, e) => match e with
      | .error fault => if (device? path).isSome then none else some (path, fault)
      | .ok _ => none
    refused.forM fun (path, fault) =>
      tell name ("cannot access " ++ quoted path ++ ": " ++ fault.reason)
    let entries := found.filterMap fun (path, e) => match e with
      | .ok (place, e) => some (path, place, e)
      | .error _ => if (device? path).isSome then some (path, [], .file [] 0o666) else none
    let isListed (e : Entry) : Bool := o.has 'd' || e != .directory
    let plain := l.sorted ((entries.filter fun e => isListed e.2.2).map fun (path, _, e) => (path, e))
    let directories := l.sorted ((entries.filter fun e => !isListed e.2.2).map fun (path, _, e) => (path, e))
    let listings := directories.flatMap fun (path, _) =>
      match targetOf files path with
      | .ok (place, _) => l.directory files (o.has 'R') files.entries.length path place
      | .error _ => []
    let hasTitles := 1 < (if operands.isEmpty then 1 else operands.length) || o.has 'R'
    let sections := (if plain.isEmpty then [] else [l.rows plain]) ++
      listings.map fun (path, rows) => (if hasTitles then [path ++ ":"] else []) ++ rows
    say (String.intercalate "\n" (sections.map fun rows => String.join (rows.map (· ++ "\n"))))
    return if refused.isEmpty then 0 else 2

def withoutEnding (ending name : String) : String :=
  if !ending.isEmpty && ending.length < name.length && name.endsWith ending then
    (name.dropEnd ending.length).toString
  else name

def tellLastName (name : String) (args : List String) : Eval Nat :=
  withOptions
    { OptionTable.ofText "as:z" [("multiple", 'a'), ("suffix=", 's'), ("zero", 'z')] 1 with inFront := true }
    name args fun o operands => do
      let lineEnd := if o.has 'z' then "\x00" else "\n"
      match operands with
      | [] => refuse name "missing operand" 1
      | operands =>
        if o.has 'a' || o.has 's' then
          operands.forM fun path => say (withoutEnding ((o.value? 's').getD "") (lastName path) ++ lineEnd)
          return 0
        else
          match operands with
          | _ :: _ :: extra :: _ => refuse name ("extra operand " ++ quoted extra) 1
          | operands =>
            say (withoutEnding (operands.getD 1 "") (lastName (operands.headD "")) ++ lineEnd)
            return 0

def tellDirectory (name : String) (args : List String) : Eval Nat :=
  withOptions (.ofText "z" [("zero", 'z')] 1) name args fun o operands => do
    if operands.isEmpty then refuse name "missing operand" 1
    else
      operands.forM fun path => say (directoryPart path ++ if o.has 'z' then "\x00" else "\n")
      return 0

end Retrial.Utility
