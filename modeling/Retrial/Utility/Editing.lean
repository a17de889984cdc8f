import Retrial.Utility.Edit.Reader
import Retrial.Utility.Edit.Run
import Retrial.Utility.Source

/-!
# Editing files

The tool by which a child edits files: what it is given, what it reads and where
its output goes.
-/

set_option autoImplicit false

namespace Retrial.Utility

open Retrial.Shell Retrial.Text
open Retrial.Utility.Edit (Editor Line InputLine Output Manner)

structure ScriptPart where
  file : Option String
  chars : List Char

def editTable : OptionTable :=
  .ofText "bsnrzuEe:f:l:i::"
    [("quiet", 'n'), ("silent", 'n'), ("expression=", 'e'), ("file=", 'f'), ("in-place[=]", 'i'),
      ("line-length=", 'l'), ("regexp-extended", 'E'), ("separate", 's'), ("null-data", 'z'), ("zero-terminated", 'z'),
      ("unbuffered", 'u'), ("posix", 'p'), ("sandbox", 'b'), ("follow-symlinks", 'b'), ("debug", 'b')] 1

def editUsage (name : String) : String :=
  "Usage: " ++ name ++ " [OPTION]... \x7bscript-only-if-no-other-script\x7d [input-file]...\n"

def joinParts : List ScriptPart → List ScriptPart
  | a :: b :: rest =>
    let slashes := (a.chars.reverse.takeWhile (· == '\\')).length
    if a.file.isNone && slashes % 2 == 1 then joinParts ({ b with chars := a.chars ++ '\n' :: b.chars } :: rest)
    else a :: joinParts (b :: rest)
  | parts => parts
  termination_by parts => parts.length

def readScript (extended : Bool) (parts : List ScriptPart) : Except String Edit.Script := do
  let (p, _) ← (joinParts parts).foldlM
    (fun (state : Edit.Progress × Nat) part => do
      let (p, number) := state
      let number := if part.file.isNone then number + 1 else number
      match Edit.readCommands extended (part.chars.length + 1) p part.chars with
      | .ok p => return (p, number)
      | .error fault =>
        let unread := fault.unread.getD 0
        let consumed := part.chars.take (part.chars.length - unread)
        if fault.unread.isNone then throw fault.message
        match part.file with
        | none =>
          throw ("-e expression #" ++ toString number ++ ", char " ++ toString consumed.length ++ ": " ++
            fault.message)
        | some path =>
          let line := (consumed.filter (· == '\n')).length + 1
          throw ("file " ++ path ++ " line " ++ toString line ++ ": " ++ fault.message))
    ((⟨#[], []⟩ : Edit.Progress), 0)
  if p.blocks.isEmpty then Edit.resolve p else throw "-e expression #1, char 0: unmatched \x60\x7b'"

def inputLines (title : String) (delimiter : Char) (cs : List Char) : List InputLine :=
  let lines := splitEnds delimiter cs
  let all := lines.map fun l => (⟨⟨l, true⟩, title⟩ : InputLine)
  if isEnded delimiter cs then all
  else all.dropLast ++ (all.getLast?.map fun l => { l with line := { l.line with ended := false } }).toList

def filesRead (script : Edit.Script) : List String :=
  script.toList.filterMap fun s => match s.action with
    | .readFile path | .readLine path => some path
    | _ => none

def filesWritten (script : Edit.Script) : List String :=
  script.toList.filterMap fun s => match s.action with
    | .writeSpace path | .writeLine path => some path
    | .substitute t => t.target
    | _ => none

def replaceFile (path : String) (cs : List Char) : Eval Unit := do
  match ← openPath .overwrite path with
  | .ok index =>
    let outer := (← get).descriptors
    modify fun s => s.connect 1 index
    sayChars cs
    modify fun s => { s with descriptors := outer }
  | .error _ => pure ()

def keepBackup (path suffix : String) (cs : List Char) : Eval Unit := do
  let name := Path.programName path
  let front := (path.dropEnd name.length).toString
  let kept := if suffix.toList.contains '*' then suffix.replace "*" name else name ++ suffix
  replaceFile (if kept.toList.contains '/' then kept else front ++ kept) cs

def editLines (name : String) (args : List String) : Eval Nat := do
  match editTable.read (args.length + 1) args with
  | .error message =>
    tell name message
    complain (editUsage name)
    return 1
  | .ok (o, operands) =>
    let given := o.filter fun p => p.1 == 'e' || p.1 == 'f'
    let (given, operands) : Chosen × List String :=
      if given.isEmpty then (operands.take 1 |>.map fun w => ('e', w), operands.drop 1) else (given, operands)
    let parts ← given.mapM fun (kind, word) => do
      if kind == 'e' then return Except.ok ⟨none, word.toList⟩
      else
        match ← textOf word with
        | .ok cs => return Except.ok (⟨some word, cs⟩ : ScriptPart)
        | .error fault => return Except.error ("couldn't open file " ++ word ++ ": " ++ fault.reason)
    let script : Except String (List ScriptPart × Edit.Script) := do
      let parts ← parts.mapM id
      return (parts, ← readScript (o.has 'E' || o.has 'r') parts)
    match given, script with
    | [], _ =>
      complain (editUsage name)
      return 1
    | _, .error message =>
      tell name message
      -- A fault that has a place is one of the call, any other one is of the script as a whole.
      return if ["can't find label", "character class"].any fun w => message.startsWith w then 4 else 1
    | _, .ok (parts, script) =>
      let isSilent := (parts.head?.map fun p => p.chars.take 3 == "#n\n".toList || p.chars == "#n".toList).getD false
      let m : Manner :=
        { quiet := o.has 'n' || isSilent
          inPlace := o.has 'i'
          delimiter := if o.has 'z' then '\x00' else '\n'
          width := ((o.value? 'l').bind String.toNat?).getD 70 }
      run name o m script operands
where
  run (name : String) (o : Chosen) (m : Manner) (script : Edit.Script) (operands : List String) : Eval Nat := do
    let inPlace := o.value? 'i'
    if inPlace.isSome && operands.isEmpty then
      tell name "no input files"
      return 4
    else
      let texts ← (filesRead script).eraseDups.mapM fun path => do
        return (path, (← textOf (if path == "/dev/stdin" then "-" else path)).toOption.getD [])
      let written := (filesWritten script).filter fun p => p != "/dev/stdout"
      written.forM fun path => replaceFile path []
      let (inputs, status) ← (sources operands).foldlM
        (fun (state : List (String × List Char) × Nat) operand => do
          let (inputs, status) := state
          if status == 4 then return state
          else
            match ← textOf operand with
            | .ok cs => return (inputs ++ [(operand, cs)], status)
            | .error .isADirectory =>
              if inPlace.isSome then tell name ("couldn't edit " ++ operand ++ ": not a regular file")
              else tell name ("read error on " ++ operand ++ ": Is a directory")
              return (inputs, 4)
            | .error fault =>
              tell name ("can't read " ++ operand ++ ": " ++ fault.reason)
              return (inputs, 2)) ([], 0)
      let linesOf (input : String × List Char) : List InputLine := inputLines input.1 m.delimiter input.2
      let runs : List (Option (String × List Char) × List InputLine) :=
        if inPlace.isSome || o.has 's' then inputs.map fun i => (some i, linesOf i)
        else [(none, inputs.flatMap linesOf)]
      let (last, ended) ← runs.foldlM
        (fun (state : Editor × Option Nat) (source, lines) => do
          let (before, ended) := state
          match ended with
          | some _ => return state
          | none =>
            let e := Editor.start script before.held lines before.texts before.files
            let e := if inPlace.isSome then e else { e with output := before.output }
            match Editor.edit m script e with
            | none => throw .outOfTime
            | some (status, e) =>
              match inPlace, source with
              | some suffix, some (path, cs) =>
                unless suffix.isEmpty do keepBackup path suffix cs
                replaceFile path e.output.text
              | _, _ => pure ()
              let quits := status != 0 || (e.rest.isEmpty && e.number < lines.length)
              return (e, if quits then some status else none))
        ((Editor.start script ⟨[], true⟩ [] texts (written.eraseDups.map (·, Output.empty)) : Editor),
          (none : Option Nat))
      last.files.forM fun (path, output) =>
        if path == "/dev/stderr" then complain (String.ofList output.text)
        else if path == "/dev/stdout" then sayChars output.text
        else replaceFile path output.text
      if inPlace.isNone then sayChars last.output.text
      if last.lost then tell name "-e expression #1, char 0: no previous regular expression"
      return match ended with
        | some status => if status == 0 then 0 else status
        | none => status

end Retrial.Utility
