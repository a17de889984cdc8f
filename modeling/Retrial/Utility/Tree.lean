import Retrial.Shell.Builtin
import Retrial.Utility.Source

/-!
# Trees of files

Making, copying, moving and removing files and directories on the child's side.
-/

set_option autoImplicit false

namespace Retrial.Utility

open Retrial.Shell Retrial.Text

def withoutTree (files : Files) (place : Place) : Files :=
  { files with entries := files.entries.filter fun p => !place.isPrefixOf p.1 }

def treeAt (files : Files) (place goal : Place) : List (Place × Entry) :=
  (files.entries.filter fun p => place.isPrefixOf p.1).map fun (p, e) => (goal ++ p.drop place.length, e)

def entryOf (files : Files) (path : String) : Except IoFault (Place × Entry) := do
  let path := spelled path
  let place ← if path.endsWith "/" then files.locate path else files.locateLink path
  match files.entryAt? place with
  | some (.file content mode) =>
    if path.endsWith "/" then throw .notADirectory else return (place, .file content mode)
  | some e => return (place, e)
  | none => throw .noSuchEntry

def targetOf (files : Files) (path : String) : Except IoFault (Place × Entry) := do
  let place ← files.locate (spelled path)
  match files.entryAt? place with
  | some (.file content mode) =>
    if path.endsWith "/" then throw .notADirectory else return (place, .file content mode)
  | some e => return (place, e)
  | none => throw .noSuchEntry

def isDirectoryAt (files : Files) (path : String) : Bool :=
  match targetOf files path with
  | .ok (_, .directory) => true
  | _ => false

def lastName (path : String) : String :=
  let trimmed := path.toList.reverse.dropWhile (· == '/')
  if trimmed.isEmpty then (if path.isEmpty then "" else "/")
  else String.ofList (trimmed.takeWhile (· != '/')).reverse

def directoryPart (path : String) : String :=
  let trimmed := path.toList.reverse.dropWhile (· == '/')
  if trimmed.isEmpty then (if path.isEmpty then "." else "/")
  else
    let above := (trimmed.dropWhile (· != '/')).dropWhile (· == '/')
    if !trimmed.contains '/' then "."
    else if above.isEmpty then "/"
    else String.ofList above.reverse

def forOperands (operands : List String) (action : String → Eval Nat) : Eval Nat :=
  operands.foldlM (fun status operand => return max status (← action operand)) 0

def putFiles (files : Files) : Eval Unit := modify fun s => { s with files := files }

def agrees (needed : Bool) (question : String) : Eval Bool := do
  if !needed then return true
  else
    complain question
    match ← unread 0 with
    | .ok bytes =>
      let line := bytes.takeWhile (· != 10)
      advance 0 (line.length + 1)
      return line.head? == some 121 || line.head? == some 89
    | .error _ => return false

def makeTable : OptionTable :=
  .ofText "m:pvZ" [("mode=", 'm'), ("parents", 'p'), ("verbose", 'v')] 1

def pathsTo (path : String) : List String :=
  let segments := (path.splitOn "/").filter (!·.isEmpty)
  (List.range segments.length).map fun i =>
    (if path.startsWith "/" then "/" else "") ++ String.intercalate "/" (segments.take (i + 1))

def makeDirectories (name : String) (args : List String) : Eval Nat :=
  withOptions makeTable name args fun o operands => do
    let make (path : String) (passing : Bool) : Eval (Option String) := do
      let files := (← get).files
      match files.createDirectory (spelled path) with
      | .ok files =>
        putFiles files
        if o.has 'v' then say (name ++ ": created directory " ++ quoted path ++ "\n")
        return none
      | .error fault =>
        if passing && isDirectoryAt files path then return none
        else
          let isInTheWay := passing && (targetOf files path).toOption.isSome
          let reason := if isInTheWay && !o.has '!' then "File exists" else fault.reason
          return some ("cannot create directory " ++ quoted path ++ ": " ++ reason)
    if operands.isEmpty then refuse name "missing operand" 1
    else
      let wrongMode := (o.value? 'm').filter fun word => (modeOf? 0o022 0o777 word).isNone
      match wrongMode with
      | some word =>
        tell name ("invalid mode " ++ quoted word)
        return 1
      | none =>
        forOperands operands fun path => do
          let paths := if o.has 'p' then pathsTo path else [path]
          let refused ← paths.foldlM
            (fun (refused : Option String) p => do
              match refused with
              | some _ => return refused
              | none =>
                match ← make p (o.has 'p') with
                | none => return none
                | some message =>
                  if p == paths.getLastD "" then return some message
                  else return some ("cannot create directory " ++ quoted p ++ ": Not a directory")) none
          match refused with
          | some message =>
            tell name message
            return 1
          | none => return 0

def removeDirectories (name : String) (args : List String) : Eval Nat :=
  withOptions (.ofText "pv" [("parents", 'p'), ("verbose", 'v'), ("ignore-fail-on-non-empty", 'i')] 1) name args
    fun o operands => do
      if operands.isEmpty then refuse name "missing operand" 1
      else
        let removeOne (path : String) (what : String) : Eval Nat := do
          if o.has 'v' then say (name ++ ": removing directory, " ++ quoted path ++ "\n")
          let files := (← get).files
          let refuseIt (reason : String) : Eval Nat := do
            tell name ("failed to remove " ++ what ++ quoted path ++ ": " ++ reason)
            return 1
          match entryOf files path with
          | .ok (place, .directory) =>
            if !(files.namesIn place).isEmpty then
              if o.has 'i' then return 2 else refuseIt "Directory not empty"
            else if path == "." || path.endsWith "/." then refuseIt "Invalid argument"
            else
              putFiles (files.erase place)
              return 0
          | .ok _ => refuseIt "Not a directory"
          | .error fault => refuseIt fault.reason
        forOperands operands fun path => do
          let status ← removeOne path ""
          if status != 0 || !o.has 'p' then return if status == 2 then 0 else status
          else
            let above := ((pathsTo path).dropLast).reverse
            let (_, status) ← above.foldlM
              (fun (state : Bool × Nat) p => do
                if !state.1 then return state
                else
                  let status ← removeOne p "directory "
                  return (status == 0, if status == 2 then 0 else status)) (true, 0)
            return status

def pathsBelow (files : Files) (place : Place) (path : String) : List (String × Place × Entry) :=
  let below := (files.entries.filter fun p => place.isPrefixOf p.1).mergeSort fun a b => b.1 ≤ a.1
  below.map fun (p, e) =>
    let rest := p.drop place.length
    (if rest.isEmpty then path
      else (if path.endsWith "/" then path else path ++ "/") ++ octets (String.intercalate "/" rest), p, e)

def removeTable : OptionTable :=
  .ofText "dfirRvI" [("dir", 'd'), ("force", 'f'), ("interactive", 'i'), ("recursive", 'r'), ("verbose", 'v'),
    ("preserve-root", 'P'), ("no-preserve-root", 'N'), ("one-file-system", 'X')] 1

def removeEntries (name : String) (args : List String) : Eval Nat :=
  withOptions removeTable name args fun o operands => do
    let forced := o.last? ['f', 'i'] == some 'f'
    if operands.isEmpty then if forced then return 0 else refuse name "missing operand" 1
    else
      forOperands operands fun path => do
        let s ← get
        let refuseIt (reason : String) : Eval Nat := do
          tell name ("cannot remove " ++ quoted path ++ ": " ++ reason)
          return 1
        let last := lastName path
        let deep := o.has 'r' || o.has 'R'
        if deep && (last == "." || last == "..") then
          tell name ("refusing to remove '.' or '..' directory: skipping " ++ quoted path)
          return 1
        else
          match entryOf s.files path with
          | .error fault =>
            if forced && (fault == .noSuchEntry || fault == .notADirectory) then return 0
            else refuseIt fault.reason
          | .ok (place, .directory) =>
            if deep then
              if place.isEmpty then
                tell name "it is dangerous to operate recursively on '/'"
                tell name "use --no-preserve-root to override this failsafe"
                return 1
              else
                let all := pathsBelow s.files place path
                let after := all.foldl (fun (s : State) (_, p, _) => s.detach p) s
                set { after with files := withoutTree s.files place }
                if o.has 'v' then
                  all.forM fun (p, _, e) =>
                    say ((if e == .directory then "removed directory " else "removed ") ++ quoted p ++ "\n")
                return 0
            else if o.has 'd' then
              if (s.files.namesIn place).isEmpty then
                putFiles (s.files.erase place)
                if o.has 'v' then say ("removed directory " ++ quoted path ++ "\n")
                return 0
              else refuseIt "Directory not empty"
            else refuseIt "Is a directory"
          | .ok (place, entry) =>
            let kind := match entry with
              | .link _ => "symbolic link"
              | .file [] _ => "regular empty file"
              | _ => "regular file"
            let question := name ++ ": remove " ++ kind ++ " " ++ quoted path ++ "? "
            if !(← agrees (o.last? ['f', 'i'] == some 'i') question) then
              return 0
            else
              let s := (← get).detach place
              set { s with files := s.files.erase place }
              if o.has 'v' then say ("removed " ++ quoted path ++ "\n")
              return 0

structure Transfer where
  name : String
  moves : Bool
  deep : Bool
  follows : Bool
  verbose : Bool
  keeps : Bool
  keepsMode : Bool
  asks : Bool

def reopenAt (s : State) (place goal : Place) : State :=
  { s with opened := s.opened.map fun f =>
      match f.channel with
      | .file p => if place.isPrefixOf p then { f with channel := .file (goal ++ p.drop place.length) } else f
      | _ => f }

def Transfer.carry (t : Transfer) (source goal : String) : Eval Nat := do
  let s ← get
  let stop (message : String) : Eval Nat := do
    tell t.name message
    return 1
  match (if t.moves || !t.follows then entryOf else targetOf) s.files source with
  | .error fault => stop ("cannot stat " ++ quoted source ++ ": " ++ fault.reason)
  | .ok (place, entry) =>
    if entry == .directory && !t.moves && !t.deep then
      stop ("-r not specified; omitting directory " ++ quoted source)
    else
      let trimmed := if entry == .directory then String.ofList (goal.toList.reverse.dropWhile (· == '/')).reverse else goal
      let located := if t.moves then s.files.locateLink (spelled trimmed) else s.files.locate (spelled trimmed)
      let cannot (reason : String) : Eval Nat :=
        if t.moves then stop ("cannot move " ++ quoted source ++ " to " ++ quoted goal ++ ": " ++ reason)
        else if entry == .directory then stop ("cannot create directory " ++ quoted goal ++ ": " ++ reason)
        else stop ("cannot create regular file " ++ quoted goal ++ ": " ++ reason)
      let isMissingDirectory := entry != .directory && goal.endsWith "/"
      match located with
      | .error fault =>
        let isOnlyMissing := fault == .noSuchEntry &&
          (s.files.locateLink (spelled (String.ofList (goal.toList.reverse.dropWhile (· == '/')).reverse))).toOption.isSome
        if (device? goal).isSome && !t.moves then return 0
        else if isMissingDirectory && isOnlyMissing then cannot "Not a directory"
        else cannot fault.reason
      | .ok target =>
        let there := s.files.entryAt? target
        if target == place then stop (quoted source ++ " and " ++ quoted goal ++ " are the same file")
        else if isMissingDirectory && there.isNone then cannot "Not a directory"
        else if entry == .directory && place.isPrefixOf target then
          if t.moves then
            stop ("cannot move " ++ quoted source ++ " to a subdirectory of itself, " ++ quoted goal)
          else
            -- All but the copy itself is copied before that is noticed.
            if there.isNone && (s.files.entryAt? target.dropLast).isSome then
              putFiles ((treeAt s.files place target).foldl (fun files (p, e) => files.put p e) s.files)
            stop ("cannot copy a directory, " ++ quoted source ++ ", into itself, " ++ quoted goal)
        else if there == some .directory && entry != .directory then
          stop ("cannot overwrite directory " ++ quoted goal ++ " with non-directory")
        else if entry == .directory && there.isSome && there != some .directory then
          stop ("cannot overwrite non-directory " ++ quoted goal ++ " with directory " ++ quoted source)
        else if t.keeps && there.isSome then
          if t.moves then stop ("not replacing " ++ quoted goal) else return 0
        else if !(← agrees (t.asks && there.isSome) (t.name ++ ": overwrite " ++ quoted goal ++ "? ")) then return 1
        else if (there.isNone && !s.files.isDirectory ("/" ++ String.intercalate "/" target.dropLast)) then
          cannot "No such file or directory"
        else if t.moves && there == some .directory && !(s.files.namesIn target).isEmpty then
          cannot "Directory not empty"
        else
          if t.moves then
            let s := if there.isSome then s.detach target else s
            let s := reopenAt s place target
            let moved := treeAt s.files place target
            let files := withoutTree (withoutTree s.files target) place
            set { s with files := { files with entries := moved ++ files.entries } }
          else
            let masked (e : Entry) : Entry := match e with
              | .file content mode => .file content (if t.keepsMode then mode else s.newMode mode)
              | e => e
            let copied := (treeAt s.files place target).map fun (p, e) =>
              (p, match s.files.entryAt? p, masked e with
                | some (.file _ mode), .file content newMode => .file content (if t.keepsMode then newMode else mode)
                | _, e => e)
            putFiles (copied.foldl (fun files (p, e) => files.put p e) s.files)
          if t.verbose then
            say ((if t.moves then "renamed " else "") ++ quoted source ++ " -> " ++ quoted goal ++ "\n")
          return 0

def inside ( directory source : String) : String :=
  (if directory.endsWith "/" then directory else directory ++ "/") ++ lastName source

def Transfer.carryAll (t : Transfer) (target : Option String) (alone : Bool) (operands : List String) :
    Eval Nat := do
  let files := (← get).files
  match target, operands with
  | some directory, operands =>
    if operands.isEmpty then refuse t.name "missing file operand" 1
    else
      match targetOf files directory with
      | .ok (_, .directory) => forOperands operands fun source => t.carry source (inside directory source)
      | .ok _ =>
        tell t.name ("target directory " ++ quoted directory ++ ": Not a directory")
        return 1
      | .error fault =>
        tell t.name ("target directory " ++ quoted directory ++ ": " ++ fault.reason)
        return 1
  | none, [] => refuse t.name "missing file operand" 1
  | none, [a] => refuse t.name ("missing destination file operand after " ++ quoted a) 1
  | none, operands =>
    let goal := operands.getLastD ""
    let operands := operands.dropLast
    match targetOf files goal, operands with
    | .ok (_, .directory), operands =>
      if alone then forOperands operands fun source => t.carry source goal
      else forOperands operands fun source => t.carry source (inside goal source)
    | _, [source] => t.carry source goal
    | .ok _, _ =>
      tell t.name ("target " ++ quoted goal ++ ": Not a directory")
      return 1
    | .error fault, _ =>
      tell t.name ("target " ++ quoted goal ++ ": " ++ fault.reason)
      return 1

def copyTable : OptionTable :=
  .ofText "abdfHilLnprRst:Tuvx"
    [("archive", 'a'), ("force", 'f'), ("interactive", 'i'), ("dereference", 'L'), ("no-dereference", 'P'),
      ("no-clobber", 'n'), ("preserve[=]", 'p'), ("recursive", 'r'), ("target-directory=", 't'),
      ("no-target-directory", 'T'), ("update[=]", 'u'), ("verbose", 'v')] 1

def copyFiles (name : String) (args : List String) : Eval Nat :=
  withOptions { copyTable with letters := ('P', .nothing) :: copyTable.letters } name args fun o operands => do
    let deep := o.has 'r' || o.has 'R' || o.has 'a'
    let t : Transfer :=
      ⟨name, false, deep, !(o.has 'P' || o.has 'd' || (deep && !o.has 'L')), o.has 'v', o.has 'n', o.has 'p' || o.has 'a', o.last? ['f', 'i', 'n'] == some 'i'⟩
    if t.keeps then
      tell name "warning: behavior of -n is non-portable and may change in future; use --update=none instead"
    t.carryAll (o.value? 't') (o.has 'T') operands

def moveTable : OptionTable :=
  .ofText "bfint:Tuv"
    [("force", 'f'), ("interactive", 'i'), ("no-clobber", 'n'), ("target-directory=", 't'),
      ("no-target-directory", 'T'), ("update[=]", 'u'), ("verbose", 'v')] 1

def moveFiles (name : String) (args : List String) : Eval Nat :=
  withOptions moveTable name args fun o operands => do
    let last := o.last? ['f', 'i', 'n']
    let t : Transfer := ⟨name, true, true, false, o.has 'v', last == some 'n', true, last == some 'i'⟩
    t.carryAll (o.value? 't') (o.has 'T') operands

def linkTable : OptionTable :=
  .ofText "bdfFiLnPrst:Tv"
    [("force", 'f'), ("symbolic", 's'), ("no-dereference", 'n'), ("target-directory=", 't'),
      ("no-target-directory", 'T'), ("verbose", 'v'), ("relative", 'r')] 1

def makeLinks (name : String) (args : List String) : Eval Nat :=
  withOptions linkTable name args fun o operands => do
    let symbolic := o.has 's'
    let kind := if symbolic then "symbolic" else "hard"
    let link (source goal : String) : Eval Nat := do
      let s ← get
      let stop (message : String) : Eval Nat := do
        tell name message
        return 1
      let content : Except IoFault Entry :=
        if symbolic then .ok (.link (spelled source)) else (targetOf s.files source).map (·.2)
      match content with
      | .error fault => stop ("failed to access " ++ quoted source ++ ": " ++ fault.reason)
      | .ok .directory => stop (shown source ++ ": hard link not allowed for directory")
      | .ok entry =>
        let failed (reason : String) : Eval Nat :=
          stop ("failed to create " ++ kind ++ " link " ++ quoted goal ++ ": " ++ reason)
        match s.files.locateLink (spelled goal) with
        | .error fault => failed fault.reason
        | .ok place =>
          match s.files.entryAt? place with
          | some .directory => stop (shown goal ++ ": cannot overwrite directory")
          | some _ =>
            if !o.has 'f' then failed "File exists"
            else
              let s := s.detach place
              set { s with files := s.files.put place entry }
              return 0
          | none =>
            if s.files.isDirectory ("/" ++ String.intercalate "/" place.dropLast) then
              putFiles (s.files.put place entry)
              if o.has 'v' then say (quoted goal ++ (if symbolic then " -> " else " => ") ++ quoted source ++ "\n")
              return 0
            else failed "No such file or directory"
    let files := (← get).files
    match o.value? 't', operands with
    | some d, operands => forOperands operands fun source => link source (inside d source)
    | none, [] => refuse name "missing file operand" 1
    | none, [a] => link a (inside "." a)
    | none, operands =>
      let goal := operands.getLastD ""
      let isLink := match entryOf files goal with
        | .ok (_, .link _) => true
        | _ => false
      if isDirectoryAt files goal && !o.has 'T' && !(o.has 'n' && isLink) then
        forOperands operands.dropLast fun source => link source (inside goal source)
      else
        match operands with
        | [source, goal] => link source goal
        | _ =>
          tell name ("target " ++ quoted goal ++ ": " ++
            if (targetOf files goal).toOption.isSome then "Not a directory" else "No such file or directory")
          return 1

def modeLetters (mode : Nat) : String :=
  let three (bits special : Nat) (on off : Char) : List Char :=
    [if bits &&& 4 != 0 then 'r' else '-', if bits &&& 2 != 0 then 'w' else '-',
      if special != 0 then (if bits &&& 1 != 0 then on else off) else if bits &&& 1 != 0 then 'x' else '-']
  String.ofList (three (mode >>> 6) (mode &&& 0o4000) 's' 'S' ++ three (mode >>> 3) (mode &&& 0o2000) 's' 'S' ++
    three mode (mode &&& 0o1000) 't' 'T')

def modeTable : OptionTable :=
  .ofText "cfvR" [("changes", 'c'), ("quiet", 'f'), ("silent", 'f'), ("verbose", 'v'), ("recursive", 'R'),
    ("reference=", '=')] 1

def changeModes (name : String) (args : List String) : Eval Nat := do
  -- A word of permissions that are taken away looks like an option.
  let isMode (w : String) : Bool :=
    match w.toList with
    | '-' :: c :: cs => (c :: cs).all fun c => "rwxXstugo,+-=".toList.contains c
    | _ => false
  let modes := args.filter isMode
  withOptions modeTable name (args.filter (!isMode ·)) fun o operands => do
    let files := (← get).files
    let copied := (o.value? '=').map fun path => match targetOf files path with
      | .ok (_, .file _ mode) => octalText 1 mode
      | _ => "755"
    let (word, operands) : Option String × List String := match copied, modes, operands with
      | some m, _, operands => (some m, operands)
      | none, m :: _, operands => (some m, operands)
      | none, [], m :: operands => (some m, operands)
      | none, [], [] => (none, [])
    match word, operands with
    | none, _ => refuse name "missing operand" 1
    | some word, [] => refuse name ("missing operand after " ++ quoted word) 1
    | some word, operands =>
      let s ← get
      if (modeOf? s.mask 0 word).isNone then refuse name ("invalid mode: " ++ quoted word) 1
      else
        forOperands operands fun path => do
          let s ← get
          match targetOf s.files path with
          | .error fault =>
            unless o.has 'f' do tell name ("cannot access " ++ quoted path ++ ": " ++ fault.reason)
            return 1
          | .ok (place, _) =>
            let all := if o.has 'R' then (pathsBelow s.files place path).reverse
              else (s.files.entryAt? place).toList.map fun e => (path, place, e)
            all.forM fun (p, place, e) => do
              match e with
              | .file content mode =>
                let isPlainX := word.toList.contains 'X' && mode &&& 0o111 == 0
                let word := if isPlainX then String.ofList (word.toList.filter (· != 'X')) else word
                let changed := (modeOf? s.mask mode word).getD mode
                let files := (← get).files
                putFiles (files.put place (.file content changed))
                let text (m : Nat) : String := octalText 4 m ++ " (" ++ modeLetters m ++ ")"
                if changed != mode && (o.has 'v' || o.has 'c') then
                  say ("mode of " ++ quoted p ++ " changed from " ++ text mode ++ " to " ++ text changed ++ "\n")
                else if o.has 'v' then say ("mode of " ++ quoted p ++ " retained as " ++ text mode ++ "\n")
              | _ => pure ()
            return 0

def touchFiles (name : String) (args : List String) : Eval Nat :=
  withOptions
    (.ofText "acd:fhmr:t:" [("no-create", 'c'), ("date=", 'd'), ("reference=", 'r'), ("time=", 'T')] 1) name args
    fun o operands => do
      if operands.isEmpty then refuse name "missing file operand" 1
      else
        forOperands operands fun path => do
          let files := (← get).files
          match targetOf files path with
          | .ok _ => return 0
          | .error fault =>
            if o.has 'c' && fault == .noSuchEntry then return 0
            else
              let opened : Except IoFault Nat ← if fault == .noSuchEntry then openPath .append path else pure (.error fault)
              match opened with
              | .ok _ => return 0
              | .error fault =>
                if (device? path).isSome then return 0
                else
                  tell name ("cannot touch " ++ quoted path ++ ": " ++ fault.reason)
                  return 1

end Retrial.Utility
