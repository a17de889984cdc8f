import Retrial.Shell.State

/-!
# Streams of a running script

Running something on the child's side with streams of its own: on a copy of the
process, with its output gathered, or under redirections that end with it. What
goes wrong is explained on the stream for complaints, with the name of the script
and the line of the command.
-/

set_option autoImplicit false

namespace Retrial.Shell

open Retrial.Text

def heading (s : State) : String :=
  s.title ++ ": " ++ toString s.line ++ ": " ++
    match s.busy with
    | some name => name ++ ": "
    | none => ""

def explain (message : String) : Eval Unit := do
  complain (heading (← get) ++ message ++ "\n")

def fail {α : Type} (message : String) : Eval α := do
  explain message
  setStatus 2
  throw .failed

def pipeLimit : Nat := 1048576

/-- Runs something on a copy of what the process has for itself. Only the files
and the clock go on from where that left them. -/
def isolated {α : Type} (body : Eval α) : Eval α := do
  let before ← get
  let restore : Eval Unit := modify fun after =>
    { after with
      toFrame := before.toFrame
      files := after.files.seenFrom before.files.workingDirectory }
  try
    let answer ← body
    restore
    return answer
  catch e => restore; throw e

/-- Runs something and gives the bytes it writes to its output, once all that
keeps the output open has been settled. -/
def gathering {α : Type} (limit : Option Nat) (settle : Nat → Eval Unit) (body : Eval α) :
    Eval (Bytes × α) := do
  let (number, s) := (← get).gather limit
  let (index, s) := s.addOpen ⟨.gathered number, 0, false, true, false⟩
  set s
  let answer ← isolated do
    modify fun s => s.connect 1 index
    body
  settle number
  return ((← get).gatheredBytes number, answer)

def supplied {α : Type} (bytes : Bytes) (body : Eval α) : Eval α := do
  let before := (← get).descriptors
  let (index, s) := (← get).addOpen ⟨.supply bytes, 0, true, false, false⟩
  set (s.connect 0 index)
  let restore : Eval Unit := modify fun s => { s with descriptors := before }
  try
    let answer ← body
    restore
    return answer
  catch e => restore; throw e

def restoring {α : Type} (body : Eval α) : Eval α := do
  let before := (← get).descriptors
  let restore : Eval Unit := modify fun s => { s with descriptors := before }
  try
    let answer ← body
    restore
    return answer
  catch e => restore; throw e

def streamNamed? (path : String) : Option Nat :=
  match path with
  | "/dev/stdin" => some 0
  | "/dev/stdout" => some 1
  | "/dev/stderr" => some 2
  | path =>
    if path.startsWith "/dev/fd/" then (path.drop 8).toString.toNat?
    else if path.startsWith "/proc/self/fd/" then (path.drop 14).toString.toNat?
    else none

def device? (path : String) : Option Channel :=
  match path with
  | "/dev/null" => some .nothing
  | "/dev/zero" => some .zeros
  | "/dev/full" => some .full
  | _ => none

def State.newMode (s : State) (asked : Nat) : Nat := asked &&& (0o777 ^^^ (s.mask &&& 0o777))

def openPath (opening : Opening) (path : String) : Eval (Except IoFault Nat) := do
  let s ← get
  let reads := opening == .read || opening == .readWrite
  let writes := opening != .read
  let add (s : State) (channel : Channel) : Eval (Except IoFault Nat) := do
    let (index, s) := s.addOpen ⟨channel, 0, reads, writes, opening == .append⟩
    set s
    return .ok index
  match streamNamed? path, device? path with
  | some stream, _ =>
    match s.openFile? stream with
    | some (index, _) => return .ok index
    | none => return .error .noSuchEntry
  | none, some channel => add s channel
  | none, none =>
    if path == "/dev/tty" then return .error .noSuchDevice
    else
      match s.files.locate (spelled path) with
      | .error fault => return .error fault
      | .ok place =>
        match s.files.entryAt? place with
        | some .directory =>
          if writes then return .error .isADirectory else add s .directory
        | some (.link _) => return .error .tooManyLinks
        | some (.file _ mode) =>
          match opening with
          | .write =>
            if s.has 'C' then return .error .alreadyExists
            else add { s with files := s.files.put place (.file [] mode) } (.file place)
          | .overwrite => add { s with files := s.files.put place (.file [] mode) } (.file place)
          | _ => add s (.file place)
        | none =>
          if opening == .read then return .error .noSuchEntry
          else if path.endsWith "/" then return .error .isADirectory
          else add { s with files := s.files.put place (.file [] (s.newMode 0o666)) } (.file place)

def openStream (stream : Nat) (opening : Opening) (path : String) : Eval Bool := do
  let isMissing (fault : IoFault) : Bool := fault == .noSuchEntry || fault == .notADirectory
  match ← openPath opening path with
  | .ok index =>
    modify fun s => s.connect stream index
    return true
  | .error fault =>
    if opening == .read then
      explain ("cannot open " ++ path ++ ": " ++ if isMissing fault then "No such file" else fault.reason)
    else
      explain ("cannot create " ++ path ++ ": " ++
        if isMissing fault then "Directory nonexistent" else fault.reason)
    return false

end Retrial.Shell
