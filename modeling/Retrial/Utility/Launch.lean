import Retrial.Shell.Signal
import Retrial.Utility.Interval
import Retrial.Utility.Source

/-!
# Tools that start others

Programs that a child starts with other variables or for a limited time.
-/

set_option autoImplicit false

namespace Retrial.Utility

open Retrial.Shell Retrial.Text

def exitedWith (body : Eval Nat) : Eval Ended := do return .exited (← body)

def refuseProgram (tool front : String) (name : String) (fault : IoFault) : Eval Nat := do
  tell tool (front ++ ": " ++ fault.reason)
  let isSpaced := name.toList.any Char.isWhitespace
  if fault == .noSuchEntry && isSpaced && Path.programName tool == "env" then
    tell tool "use -[v]S to pass options in shebang lines"
  let isMissing := fault == .noSuchEntry || (fault == .notADirectory && !name.toList.contains '/')
  return if isMissing then 127 else 126

def inFrontTable (letters : String) (words : List (String × Char)) (trouble : Nat) : OptionTable :=
  { OptionTable.ofText letters words trouble with inFront := true }

def withFrontOptions (t : OptionTable) (name : String) (args : List String)
    (body : Chosen → List String → Eval Ended) : Eval Ended :=
  match t.read (args.length + 1) args with
  | .ok (o, operands) => body o operands
  | .error message => exitedWith (refuse name message t.trouble)

def takeSettings : List String → List (String × String) × List String
  | w :: rest =>
    let name := String.ofList (w.toList.takeWhile (· != '='))
    if name.length < w.length && !name.isEmpty then
      let (settings, rest) := takeSettings rest
      ((name, (w.drop (name.length + 1)).toString) :: settings, rest)
    else ([], w :: rest)
  | [] => ([], [])

def runWithVariables (l : Launcher) (name : String) (args : List String) : Eval Ended :=
  withFrontOptions
    (inFrontTable "iu:0C:vS:" [("ignore-environment", 'i'), ("unset=", 'u'), ("null", '0'), ("chdir=", 'C'),
      ("split-string=", 'S')] 125) name args fun o operands => do
    let (ignoring, operands) := match operands with
      | "-" :: rest => (true, rest)
      | rest => (false, rest)
    let operands := ((o.value? 'S').map fun w => (w.splitOn " ").filter (!·.isEmpty)).getD [] ++ operands
    let (settings, words) := takeSettings operands
    let s ← get
    let kept := if ignoring || o.has 'i' then [] else s.names.filter fun p => !(o.values 'u').contains p.1
    let put (names : List (String × Binding)) (p : String × String) : List (String × Binding) :=
      if names.any (·.1 == p.1) then names.map fun q => if q.1 == p.1 then (p.1, ⟨some p.2, true, false⟩) else q
      else names ++ [(p.1, ⟨some p.2, true, false⟩)]
    let t : State := { s with names := settings.foldl put kept }
    set t
    match o.value? 'C' with
    | none => start words
    | some path =>
      match t.files.locate (spelled path) with
      | .ok place =>
        if t.files.entryAt? place == some .directory then
          set { t with files := t.files.seenFrom place }
          start words
        else refuseDirectory path .notADirectory
      | .error fault => refuseDirectory path fault
where
  refuseDirectory (path : String) (fault : IoFault) : Eval Ended := do
    tell name ("cannot change directory to " ++ quoted path ++ ": " ++ fault.reason)
    return .exited 125
  start (words : List String) : Eval Ended := do
    match words with
    | [] =>
      (← get).environment.forM fun p => say (p.1 ++ "=" ++ p.2 ++ "\n")
      return .exited 0
    | program :: _ => l (refuseProgram name (quoted program)) words

def showVariables (_ : String) (args : List String) : Eval Nat := do
  let env := (← get).environment
  if args.isEmpty then
    env.forM fun p => say (p.1 ++ "=" ++ p.2 ++ "\n")
    return 0
  else
    args.foldlM (fun status name => do
      match env.lookup name with
      | some value =>
        say (value ++ "\n")
        return status
      | none => return 1) 0

def runForTime (l : Launcher) (name : String) (args : List String) : Eval Ended :=
  withFrontOptions
    (inFrontTable "k:s:vfp" [("kill-after=", 'k'), ("signal=", 's'), ("verbose", 'v'), ("foreground", 'f'),
      ("preserve-status", 'p')] 125) name args fun o operands => do
    match operands with
    | [] | [_] =>
      complain ("Try '" ++ name ++ " --help' for more information.\n")
      return .exited 125
    | limit :: words =>
      let signal := signal? 1 ((o.value? 's').getD "TERM")
      match interval? limit, signal with
      | none, _ => exitedWith (refuse name ("invalid time interval " ++ quoted limit) 125)
      | _, none => exitedWith (refuse name (quoted ((o.value? 's').getD "") ++ ": invalid signal") 125)
      | some limit, some signal =>
        let front := "failed to run command " ++ quoted (words.headD "")
        let s ← get
        let outer := s.deadline
        let last := s.clock + limit
        if limit == 0 || outer.any (· ≤ last) then l (refuseProgram name front) words
        else
          set { s with deadline := some last }
          try
            let ending ← l (refuseProgram name front) words
            modify fun s => { s with deadline := outer }
            return ending
          catch
            | .outOfTime =>
              modify fun s => { s with deadline := outer, clock := last }
              if o.has 'v' then
                tell name ("sending signal " ++ signalName signal ++ " to command " ++ quoted (words.headD ""))
              return if signal == 9 then .killed 9 else if o.has 'p' then .exited (128 + signal) else .exited 124
            | e => do
              modify fun s => { s with deadline := outer }
              throw e

end Retrial.Utility
