import Retrial.Shell.Builtin
import Retrial.Shell.System
import Retrial.Utility.Catalog

/-!
# Programs

What the name of a program leads to when a child is started, or starts another
one. A name with a slash is a path, and the file there has to be a script that may
be run; a plain name is looked for in the directories of a search path. Some
directories hold the programs that every system has.
-/

set_option autoImplicit false

namespace Retrial.Shell

open Retrial.Text

/-- What a program name leads to: a program of the system, a file whose first line
names the program that it is for, or a text that is taken for a script. -/
inductive Program
  | shell
  | tool (tool : Tool)
  | text (cs : List Char)
  | through (interpreter : String) (argument : Option String) (program : Program)

def interpreterLine? (content : Bytes) : Option (String × Option String) :=
  match content with
  | 35 :: 33 :: rest =>
    let isBlank (c : Char) : Bool := c == ' ' || c == '\t'
    let line := (octetsOf (rest.takeWhile (· != 10))).dropWhile isBlank
    let line := (line.reverse.dropWhile isBlank).reverse
    let name := line.takeWhile (!isBlank ·)
    let argument := (line.drop name.length).dropWhile isBlank
    if name.isEmpty then none
    else some (String.ofList name, if argument.isEmpty then none else some (String.ofList argument))
  | _ => none

def systemName? (path : String) : Option String :=
  ["/bin/", "/usr/bin/"].findSome? fun directory =>
    if path.startsWith directory then
      let name := (path.drop directory.length).toString
      if (shellNames ++ systemNames).contains name then some name else none
    else none

def systemProgram? (path : String) : Option Program :=
  (systemName? path).map fun name =>
    if shellNames.contains name then .shell
    else .tool ((Utility.tool? name).getD (.plain fun _ _ => return 127))

def interpretersAllowed : Nat := 5

def programWithin (files : Files) : Nat → String → Except IoFault Program
  | 0, _ => .error .tooManyLinks
  | depth + 1, path =>
    let orSystem (fault : IoFault) : Except IoFault Program :=
      match systemProgram? path with
      | some p => .ok p
      | none => .error fault
    match files.locate (spelled path) with
    | .error fault => orSystem fault
    | .ok place =>
      match files.entryAt? place with
      | none => orSystem .noSuchEntry
      | some .directory => .error .accessDenied
      | some (.link _) => .error .tooManyLinks
      | some (.file content mode) =>
        if !(Entry.file content mode).isRunnable then .error .accessDenied
        else
          match interpreterLine? content with
          | none => .error .executableFormat
          | some (interpreter, argument) =>
            (programWithin files depth interpreter).map (.through interpreter argument)

def programAt (files : Files) (path : String) : Except IoFault Program :=
  programWithin files interpretersAllowed path

def standardPath : String := "/usr/local/sbin:/usr/local/bin:/usr/sbin:/usr/bin:/sbin:/bin"

def candidates (searchPath name : String) : List String :=
  (searchPath.splitOn ":").map fun directory =>
    if directory.isEmpty then name else directory ++ "/" ++ name

/-- The first of some paths that leads to a program. A file that names no
interpreter is taken for a script of the shell; one that may not be run is only
reported if nothing else is found. -/
def firstProgram (files : Files) : List String → Except IoFault (String × Program)
  | [] => .error .noSuchEntry
  | path :: rest =>
    match programAt files path with
    | .ok p => .ok (path, p)
    | .error .executableFormat =>
      (files.read (spelled path)).map fun content => (path, .text (octetsOf content))
    | .error fault =>
      let isPassed := fault == .accessDenied || fault == .noSuchEntry || fault == .notADirectory
      if rest.isEmpty || !isPassed then .error fault
      else
        match firstProgram files rest with
        | .ok found => .ok found
        | .error later => .error (if fault == .accessDenied then fault else later)

def findProgram (files : Files) (searchPath : Option String) (name : String) :
    Except IoFault (String × Program) :=
  if name.isEmpty then .error .noSuchEntry
  else if name.toList.contains '/' then (programAt files name).map (name, ·)
  else if Files.maxNameBytes < name.length then .error .nameTooLong
  else firstProgram files (candidates (searchPath.getD standardPath) name)

def isBinary (cs : List Char) : Bool :=
  ((cs.take 128).takeWhile (· != '\n')).any fun c =>
    c.toNat < 32 && !('\t' ≤ c && c ≤ '\x0f') && c != '\x1b' || c == '\x7f'

/-- Why the shell does not even try to run what a name leads to: it has no search
path, or finds a file that only a program that knows it could read. -/
def refusal? (files : Files) (searchPath : Option String) (name : String) : Option IoFault :=
  if searchPath.isNone && !name.toList.contains '/' then some .noSuchEntry
  else
    let text : Option (List Char) := match findProgram files searchPath name with
      | .ok (_, .text cs) => some cs
      | .error .executableFormat => ((files.read (spelled name)).map octetsOf).toOption
      | _ => none
    if text.any isBinary then some .executableFormat else none

def bindings (env : Environment) : List (String × Binding) :=
  env.map fun (name, value) => (name, ⟨some value, true, false⟩)

def shellBindings (env : Environment) (directory : String) (parent : Nat) :
    List (String × Binding) :=
  let own : List (String × String) :=
    [("IFS", " \t\n"), ("OPTIND", "1"), ("PPID", toString parent), ("PS1", "# "), ("PS2", "> "),
      ("PS4", "+ ")]
  let kept := (bindings env).filter fun p => isName p.1.toList && !(["IFS", "OPTIND", "PPID"].contains p.1)
  let first := (own ++ [("PATH", standardPath)]).map fun (name, value) => (name, (⟨some value, false, false⟩ : Binding))
  let last : String × Binding := ("PWD", ⟨some directory, true, false⟩)
  (first ++ kept ++ [last]).foldl (fun names (name, b) => State.placed names name b) []

def explainRefusal (name : String) (fault : IoFault) : Eval Nat := do
  if name.isEmpty then
    explain ": Permission denied"
    return 127
  else
    match fault with
    | .noSuchEntry | .notADirectory =>
      explain (name ++ ": not found")
      return 127
    | .accessDenied =>
      explain (name ++ ": Permission denied")
      return if name.toList.contains '/' then 126 else 127
    | fault =>
      explain (name ++ ": " ++ fault.reason)
      return if name.toList.contains '/' || fault == .executableFormat then 126 else 127

structure Startup where
  options : List Char
  fromArgument : Bool
  fromInput : Bool
  rest : List String

def startup? (u : Startup) : List String → Except String Startup
  | [] => .ok u
  | w :: args =>
    match w.toList with
    | ['-'] | ['-', '-'] => .ok { u with rest := args }
    | sign :: letters =>
      if sign != '-' && sign != '+' then .ok { u with rest := w :: args }
      else
        let on := sign == '-'
        let set (options : List Char) (c : Char) : List Char :=
          if on then c :: options.filter (· != c) else options.filter (· != c)
        let plain := letters.filter fun c => !(['c', 'l', 'o'].contains c)
        match plain.find? fun c => !optionLetters.contains c with
        | some c => .error ("Illegal option -" ++ String.singleton c)
        | none =>
          let v : Startup :=
            { u with
              options := plain.foldl set u.options
              fromArgument := u.fromArgument || letters.contains 'c'
              fromInput := u.fromInput || (on && letters.contains 's') }
          if letters.contains 'o' then
            match args with
            | [] => .ok v
            | name :: more =>
              match namedOptions.lookup name with
              | some c => startup? { v with options := set v.options c } more
              | none => .error ("Illegal option -o " ++ name)
          else startup? v args
    | [] => .ok { u with rest := w :: args }

end Retrial.Shell
