import Retrial.Program
import Std.Time.Format

/-!
# The command line

Gathers what the program finds around it, runs it, and puts what it leaves
behind into its place.
-/

set_option autoImplicit false

namespace Retrial.Main

def variableNames : List String :=
  OptionName.all.filterMap OptionName.environmentName? ++
    [LogNaming.variableName, Program.filterVariable, "PATH", "HOME"] ++ Color.variableNames

def readEnvironment : IO Environment :=
  variableNames.filterMapM fun name => return (← IO.getEnv name).map (name, ·)

def entryOf (content : ByteArray) : Entry :=
  let bytes := content.toList
  .file bytes (if bytes.take 2 == [35, 33] then Entry.runnableMode else Entry.usualMode)

partial def collect (above : String) (files : Files) (entries : Array IO.FS.DirEntry) : IO Files :=
  entries.foldlM (fun files e => do
    let path := if above.isEmpty then e.fileName else above ++ "/" ++ e.fileName
    if ← e.path.isDir then collect path (files.plant path .directory) (← e.path.readDir)
    else return files.plant path (entryOf (← IO.FS.readBinFile e.path))) files

def store (before after : Files) : IO Unit := do
  let pathOf (place : Place) : String :=
    String.intercalate "/" (place.drop before.workingDirectory.length)
  for (place, entry) in after.entries.reverse do
    unless before.entryAt? place == some entry do
      match entry with
      | .directory => IO.FS.createDirAll (pathOf place)
      | .file content _ => IO.FS.writeBinFile (pathOf place) ⟨content.toArray⟩
      | .link _ => pure ()
  for (place, entry) in before.entries do
    match entry, after.entryAt? place with
    | .file _ _, none => IO.FS.removeFile (pathOf place)
    | _, _ => pure ()

def now : IO Moment := do
  let t ← Std.Time.PlainDateTime.now
  return ⟨t.date.year, t.date.month.val.toNat, t.date.day.val.toNat, t.time.hour.val.toNat,
    t.time.minute.val.toNat, t.time.second.val.toNat⟩

end Retrial.Main

def main (args : List String) : IO UInt32 := do
  let files ← Retrial.Main.collect "" .empty (← (← IO.currentDir).readDir)
  let output ← IO.getStdout
  let errors ← IO.getStderr
  let here : Retrial.Surroundings :=
    ⟨← Retrial.Main.readEnvironment, ← Retrial.Main.now, files, ← output.isTty, ← errors.isTty⟩
  let report := Retrial.Program.run here args
  Retrial.Main.store files report.files
  output.write ⟨report.output.toArray⟩
  errors.write ⟨report.errors.toArray⟩
  return UInt32.ofNat report.exitCode
