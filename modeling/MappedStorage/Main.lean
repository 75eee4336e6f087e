import MappedStorage.Probe.Run

/-!
The command line of the probe. What the disk has under the path of the file is read into a tree,
the probe runs on that tree, and the bytes of the file are written back.
-/

namespace MappedStorage.Probe

/-- The variables that are set. -/
def readEnvironment : IO Settings.Environment := do
  let value (var : Variable) : IO (Option (List UInt8)) :=
    return (← IO.getEnv var.name).map Utf8.encode
  let directory ← value .directory
  let initialCapacity ← value .initialCapacity
  let forceMedium ← value .forceMedium
  let locking ← value .locking
  return fun
    | .directory => directory
    | .initialCapacity => initialCapacity
    | .forceMedium => forceMedium
    | .locking => locking

/-- A tree with what the disk has under a path: a directory, the bytes of a file, or nothing. -/
def readEntry (files : FileSystem) (path : Path) : IO FileSystem :=
  try
    let real ← IO.FS.realPath path.display
    if ← real.isDir then
      return (files.makeDirectory path).toOption.getD files
    else
      return (files.setContents path (← IO.FS.readBinFile real).data).toOption.getD files
  catch _ => return files

/-- A tree with what the disk has under the steps that lead on from a path. -/
def readAlong (files : FileSystem) (base : Path) : List (List UInt8) → IO FileSystem
  | [] => return files
  | step :: rest => do
    let path := base.join ⟨step⟩
    readAlong (← readEntry files path) path rest

/-- The part of the disk that a file lies in, seen from the working directory. -/
def readTree (file : Path) : IO FileSystem := do
  let home := Path.ofString (← IO.currentDir).toString
  let files := (FileSystem.empty.makeDirectories home).2.changeDirectory home
  readAlong (files.toOption.getD .empty) (if file.isAbsolute then .ofNames [] else ⟨[]⟩)
    (FileSystem.steps file)

/-- Writes the bytes of a file to disk, if the tree has it. -/
def writeBack (files : FileSystem) (file : Path) : IO Unit :=
  match files.contentsOf file with
  | .ok data => IO.FS.writeBinFile file.display ⟨data⟩
  | .error _ => return ()

end MappedStorage.Probe

open MappedStorage in
/-- Runs the probe on the disk. -/
def main (args : List String) : IO UInt32 := do
  let args := args.map Utf8.encode
  let env ← Probe.readEnvironment
  let file? := (Probe.Command.ofArguments? args).bind (·.file? env)
  let files ← match file? with
    | some file => Probe.readTree file
    | none => pure .empty
  let (report, after) := Probe.run args env { files }
  if let some file := file? then
    Probe.writeBack after.files file
  IO.print report.stdout
  IO.eprint report.stderr
  return report.exitCode.toUInt32
