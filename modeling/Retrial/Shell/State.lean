import Retrial.Attempt
import Retrial.Shell.Tree

/-!
# The state of a script

What the running script of a child knows: its variables and arguments, the files,
where its streams lead, and a clock that only waiting moves. A command may
interrupt what surrounds it, by leaving a loop, a function or the whole script, by
a signal, or because its time is up. A job that goes on beside a script is run
later, on a clock of its own; what it writes is put where its time belongs.

Texts inside of a script are octets: every character stands for one byte. They are
turned into text proper only where a file is named by them.
-/

set_option autoImplicit false

namespace Retrial.Shell

open Retrial.Text

inductive Channel
  | file (place : Place)
  | directory
  | gathered (index : Nat)
  | supply (content : Bytes)
  | nothing
  | zeros
  | full
  deriving DecidableEq, Repr

/-- A file that has been opened, and how far it has been read or written. All
streams that were copied from one another share it. -/
structure OpenFile where
  channel : Channel
  position : Nat
  reads : Bool
  writes : Bool
  appends : Bool
  deriving DecidableEq, Repr

structure Binding where
  value : Option String
  exported : Bool
  fixed : Bool
  deriving DecidableEq, Repr

inductive Ended
  | exited (status : Nat)
  | killed (signal : Nat)
  deriving DecidableEq, Repr

/-- Why the commands that follow are not run. A failure is an error of the
script itself, whose status is set already. -/
inductive Interrupt
  | leaveLoop (depth : Nat)
  | nextRound (depth : Nat)
  | leaveFunction
  | leaveProcess (ending : Ended)
  | failed
  | killed (signal : Nat)
  | outOfTime
  deriving DecidableEq, Repr

structure Slot where
  place : Nat
  /-- The number of its last process. -/
  number : Nat
  stages : Nat
  /-- Until when its end would have been noticed. -/
  seen : Option Nat
  /-- Whether its end has been asked for. -/
  awaited : Bool
  deriving DecidableEq, Repr

structure Arrival where
  target : Nat
  signal : Nat
  time : Nat
  deriving DecidableEq, Repr

structure Frame where
  names : List (String × Binding)
  functions : List (String × Command)
  aliases : List (String × String)
  arguments : List String
  title : String
  number : Nat
  /-- The numbers of the processes above it. -/
  lineage : List Nat
  /-- How many copies of the process lie between it and the one with its number. -/
  depth : Nat
  line : Nat
  /-- The line that the reading of the script has come to. -/
  reached : Nat
  /-- The command of the language that is at work. -/
  busy : Option String
  status : Nat
  /-- The status of the last command whose output stood for a word. -/
  substituted : Nat
  /-- The open files behind the streams. -/
  descriptors : List (Nat × Nat)
  traps : List (Nat × String)
  /-- What the names that a function made its own stood for before. -/
  shadowed : List (String × Option Binding)
  isInFunction : Bool
  loops : Nat
  options : List Char
  /-- The working directory as the script knows it. -/
  directory : String
  /-- The argument at which the reading of options stands, and the place in it. -/
  nextOption : Nat
  letter : Option Nat
  lastJob : Option Nat
  /-- The jobs of the process, the last one first. -/
  slots : List Slot
  /-- The programs that have been looked up, with their paths. -/
  known : List (String × String)
  /-- The permissions that new files do not get. -/
  mask : Nat

structure Job where
  number : Nat
  frame : Frame
  place : Place
  item : Item
  started : Nat

structure JobEnd where
  number : Nat
  parent : Nat
  /-- The gathered bytes that the job could add to. -/
  holds : List Nat
  clock : Nat
  ending : Ended
  late : Bool
  /-- The signals that do not reach the job. -/
  ignored : List Nat
  deriving DecidableEq, Repr

structure Chunk where
  time : Nat
  job : Nat
  bytes : Bytes
  deriving DecidableEq, Repr

/-- What was written to a sink, the newest part first. A reader that is not
patient without end takes only so many bytes. -/
structure Gathering where
  chunks : List Chunk
  size : Nat
  limit : Option Nat
  deriving DecidableEq, Repr

structure State extends Frame where
  files : Files
  opened : Array OpenFile
  gathered : Array Gathering
  /-- Jobs that have been started but not been run yet, and those that have ended. -/
  jobs : List Job
  ends : List JobEnd
  /-- The job that is being run, zero for none. -/
  job : Nat
  nextNumber : Nat
  clock : Nat
  deadline : Option Nat
  /-- Signals that processes have sent to those above them. -/
  signals : List Arrival
  /-- Whether something could not be written to the output. -/
  lost : Bool

abbrev Eval := ExceptT Interrupt (StateM State)

namespace State

def binding? (s : State) (name : String) : Option Binding := s.names.lookup name

def value? (s : State) (name : String) : Option String := (s.binding? name).bind (·.value)

def searchPath (s : State) : Option String := some ((s.value? "PATH").getD "")

def drawerOf (count : Nat) (name : String) : Nat :=
  let octet (c : Char) : Nat := c.toNat % 256
  (16 * (name.toList.head?.map octet).getD 0 + (name.toList.map octet).sum) % count

def placed (names : List (String × Binding)) (name : String) (b : Binding) : List (String × Binding) :=
  if names.any (·.1 == name) then names.map fun p => if p.1 == name then (name, b) else p
  else
    let front := names.takeWhile fun p => drawerOf 39 p.1 ≤ drawerOf 39 name
    front ++ (name, b) :: names.drop front.length

def bind (s : State) (name : String) (b : Binding) : State := { s with names := placed s.names name b }

def assign (s : State) (name value : String) : State :=
  let old := s.binding? name
  let exported := (old.map (·.exported)).getD false || s.options.contains 'a'
  s.bind name ⟨some value, exported, (old.map (·.fixed)).getD false⟩

def unset (s : State) (name : String) : State :=
  { s with names := s.names.filter (·.1 != name) }

def rebind (s : State) (name : String) (old : Option Binding) : State :=
  match old with
  | some b => s.bind name b
  | none => s.unset name

def environment (s : State) : Environment :=
  s.names.filterMap fun (name, b) =>
    match b.value with
    | some value => if b.exported then some (name, value) else none
    | none => none

def setStatus (s : State) (status : Nat) : State := { s with status := status }

def has (s : State) (option : Char) : Bool := s.options.contains option

def openFile? (s : State) (stream : Nat) : Option (Nat × OpenFile) :=
  (s.descriptors.lookup stream).bind fun index => (s.opened[index]?).map (index, ·)

def connect (s : State) (stream index : Nat) : State :=
  { s with descriptors := (stream, index) :: s.descriptors.filter (·.1 != stream) }

def disconnect (s : State) (stream : Nat) : State :=
  { s with descriptors := s.descriptors.filter (·.1 != stream) }

def freePlace (s : State) : Nat :=
  let taken (n : Nat) : Bool := s.slots.any fun j => j.place == n && !j.awaited
  ((List.range (s.slots.length + 1)).map (· + 1)).find? (fun n => !taken n) |>.getD 1

/-- The state in which a new process has got a place among the jobs. A job whose
end has been asked for gives way to it. -/
def beginChild (s : State) : State :=
  let place := s.freePlace
  { s with slots := s.slots.filter (·.place != place) }

def endChild (s : State) : State :=
  { s with slots := s.slots.map fun j => { j with seen := some s.clock } }

def announceChild (s : State) : State :=
  if (s.traps.lookup 17).any fun action => !action.isEmpty then
    { s with signals := s.signals ++ [⟨s.number, 17, s.clock⟩] }
  else s

def addSlot (s : State) (number stages : Nat) : State :=
  let place := s.freePlace
  let s := s.beginChild
  { s with slots := ⟨place, number, stages, none, false⟩ :: s.slots, lastJob := some number }

def addOpen (s : State) (f : OpenFile) : Nat × State :=
  (s.opened.size, { s with opened := s.opened.push f })

def gather (s : State) (limit : Option Nat) : Nat × State :=
  (s.gathered.size, { s with gathered := s.gathered.push ⟨[], 0, limit⟩ })

def gatheredBytes (s : State) (index : Nat) : Bytes :=
  match s.gathered[index]? with
  | some g => (g.chunks.reverse.mergeSort fun a b => a.time ≤ b.time).flatMap (·.bytes)
  | none => []

def dropAfter (s : State) (job time : Nat) : State :=
  { s with gathered := s.gathered.map fun g =>
      { g with chunks := g.chunks.filter fun c => c.job != job || c.time ≤ time } }

def content (s : State) (f : OpenFile) : Bytes :=
  match f.channel with
  | .file place =>
    match s.files.entryAt? place with
    | some (.file content _) => content
    | _ => []
  | .supply content => content
  | .zeros => List.replicate 1048576 0
  | _ => []

def detach (s : State) (place : Place) : State :=
  { s with opened := s.opened.map fun f =>
      if f.channel == .file place then { f with channel := .supply (s.content f) } else f }

def wait (s : State) (nanoseconds : Nat) : State := { s with clock := s.clock + nanoseconds }

def isLate (s : State) : Bool :=
  match s.deadline with
  | some deadline => deadline ≤ s.clock
  | none => false

end State

def setStatus (n : Nat) : Eval Unit := modify fun s => s.setStatus n

def overwritten (content bytes : Bytes) (position : Nat) : Bytes :=
  content.take position ++ List.replicate (position - content.length) 0 ++ bytes ++
    content.drop (position + bytes.length)

/-- Writes bytes to a stream. Says whether they could be written. A reader that
takes no more ends the process that writes. -/
def emit (stream : Nat) (bytes : Bytes) : Eval Bool := do
  let s ← get
  match s.openFile? stream with
  | none => return bytes.isEmpty
  | some (index, f) =>
    if !f.writes then return bytes.isEmpty
    else
      match f.channel with
      | .gathered number =>
        match s.gathered[number]? with
        | none => return false
        | some g =>
          let size := g.size + bytes.length
          let gathered := s.gathered.set! number ⟨⟨s.clock, s.job, bytes⟩ :: g.chunks, size, g.limit⟩
          set { s with gathered := gathered }
          match g.limit with
          | some limit => if limit < size then throw (.leaveProcess (.killed 13)) else return true
          | none => return true
      | .file place =>
        match s.files.entryAt? place with
        | some (.file content mode) =>
          let position := if f.appends then content.length else f.position
          let files := s.files.put place (.file (overwritten content bytes position) mode)
          let f := { f with position := position + bytes.length }
          set { s with files := files, opened := s.opened.set! index f }
          return true
        | _ => return true
      | .full => return bytes.isEmpty
      | .supply _ | .nothing | .zeros => return true
      | .directory => return false

def sayBytes (bytes : Bytes) : Eval Unit := do
  unless ← emit 1 bytes do modify fun s => { s with lost := true }

def say (text : String) : Eval Unit := sayBytes (bytesOfOctets text.toList)

def complain (text : String) : Eval Unit := do
  let _ ← emit 2 (bytesOfOctets text.toList)

def State.unreadOf (s : State) (f : OpenFile) : Except IoFault Bytes :=
  if !f.reads then .error .badDescriptor
  else if f.channel == .directory then .error .isADirectory
  else .ok ((s.content f).drop f.position)

def unread (stream : Nat) : Eval (Except IoFault Bytes) := do
  let s ← get
  match s.openFile? stream with
  | none => return .error .badDescriptor
  | some (_, f) => return s.unreadOf f

def advance (stream count : Nat) : Eval Unit := modify fun s =>
  match s.openFile? stream with
  | some (index, f) =>
    { s with opened := s.opened.set! index { f with position := f.position + count } }
  | none => s

def takeAll (stream : Nat) : Eval (Except IoFault Bytes) := do
  match ← unread stream with
  | .ok bytes =>
    advance stream bytes.length
    return .ok bytes
  | .error fault => return .error fault

def pause (nanoseconds : Nat) : Eval Unit := do
  modify fun s => s.wait nanoseconds
  if (← get).isLate then throw .outOfTime

def freshNumber : Eval Nat := do
  let s ← get
  set { s with nextNumber := s.nextNumber + 1 }
  return s.nextNumber

def State.afterEnds (s : State) (ends : List JobEnd) : State :=
  { s with clock := ends.foldl (fun time e => max time e.clock) s.clock }

def awaitEnds (chosen : JobEnd → Bool) : Eval Unit := do
  let s ← get
  let ends := s.ends.filter chosen
  if ends.any (·.late) then throw .outOfTime
  set (s.afterEnds ends)

end Retrial.Shell
