import Retrial.Shell.Runner

/-!
# Processes

Starting programs on the child's side: a script as a process of its own, the
interpreter of scripts itself, or a tool of the system.
-/

set_option autoImplicit false

namespace Retrial.Shell

open Retrial.Text

def openFault (fault : IoFault) : String :=
  if fault == .noSuchEntry || fault == .notADirectory then "No such file" else fault.reason

namespace Runner

def runProcess (r : Runner) (title : String) (args : List String) (options : List Char)
    (isArgument : Bool) (text : List Char) : Eval Ended := do
  let number ← freshNumber
  let ending ← isolated do
    modify fun s =>
      { s with
        names := shellBindings s.environment s.directory s.number
        functions := []
        aliases := []
        arguments := args
        title := title
        number := number
        lineage := s.number :: s.lineage
        depth := 0
        line := 1
        reached := 1
        busy := none
        status := 0
        traps := s.traps.filter (·.2.isEmpty)
        shadowed := []
        isInFunction := false
        loops := 0
        options := options
        nextOption := 1
        letter := none
        lastJob := none
        slots := []
        known := [] }
    try
      r.runToEnd do
        let _ ← r.text ⟨false, isArgument⟩ text 1
    catch
      | .killed signal => return .killed signal
      | e => throw e
  return ending

def runTool (r : Runner) (path name : String) (tool : Tool) (args : List String) : Eval Ended := do
  if Path.programName path == "sleep" then r.runPending
  isolated do
    modify fun s => { s with busy := none, lost := false }
    let run : Eval Ended :=
      match tool with
      | .plain run => return .exited (← run name args)
      | .starting run => run r.start name args
    let ending ←
      try run
      catch
        | .leaveProcess ending => pure ending
        | e => throw e
    let lost := (← get).lost
    modify fun s => { s with lost := false }
    if lost then
      let fault : IoFault := match (← get).openFile? 1 with
        | some (_, ⟨.full, _, _, _, _⟩) => .noSpaceLeft
        | _ => .badDescriptor
      complain (name ++ ": write error: " ++ fault.reason ++ "\n")
      return .exited 1
    else return ending

def runShell (r : Runner) (name : String) (args : List String) : Eval Ended := do
  let refuse (message : String) : Eval Ended := do
    complain (name ++ ": 0: " ++ message ++ "\n")
    return .exited 2
  match startup? ⟨[], false, false, []⟩ args with
  | .error message => refuse message
  | .ok u =>
    match u.fromArgument, u.rest with
    | true, [] => refuse "-c requires an argument"
    | true, text :: more =>
      r.runProcess (more.headD name) (more.drop 1) u.options true text.toList
    | false, operands =>
      if operands.isEmpty || u.fromInput then
        let bytes ← match ← takeAll 0 with
          | .ok bytes => pure bytes
          | .error _ => pure []
        r.runProcess name operands ('s' :: u.options) false (octetsOf bytes)
      else
        let path := operands.headD ""
        match (← get).files.read (spelled path) with
        | .ok bytes => r.runProcess path (operands.drop 1) u.options false (octetsOf bytes)
        | .error .isADirectory => return .exited 0
        | .error fault => refuse ("cannot open " ++ path ++ ": " ++ openFault fault)

def runFound (r : Runner) (path name : String) (args : List String) : Program → Eval Ended
  | .shell => r.runShell name args
  | .tool tool => r.runTool path name tool args
  | .text cs => r.runProcess path args [] false cs
  | .through interpreter argument program =>
    r.runFound interpreter interpreter (argument.toList ++ path :: args) program

def launch (r : Runner) (refuse : String → IoFault → Eval Nat) (words : List String) :
    Eval Ended := do
  match words with
  | [] => return .exited 0
  | name :: args =>
    let s ← get
    match findProgram s.files (s.value? "PATH") name with
    | .ok (path, program) => r.runFound path name args program
    | .error .executableFormat =>
      match s.files.read (spelled name) with
      | .ok bytes => r.runProcess name args [] false (octetsOf bytes)
      | .error fault => return .exited (← refuse name fault)
    | .error fault => return .exited (← refuse name fault)

end Runner

end Retrial.Shell
