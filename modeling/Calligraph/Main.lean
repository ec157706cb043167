import Calligraph.CommandLine.Run

/-!
# The command

Reads the files that a run needs, runs, and writes what the run leaves.
-/

namespace Calligraph.Main

/-- What stands at a path on disk. In a directory only source files count. -/
partial def entryAt? (path : String) : IO (Option FileEntry) := do
  let place := (← IO.currentDir) / path
  if ← place.isDir then
    try
      let mut entries := #[]
      for e in ← place.readDir do
        let below := Files.join path e.fileName
        let wanted := if ← e.path.isDir then !isSkipped below else isSourcePath below
        if wanted then
          if let (some name, some entry) :=
              (Files.Name.ofBytes? e.fileName, ← entryAt? below.display) then
            entries := entries.push (name, entry)
      return some (.directory {} entries.toList)
    catch e =>
      return some (.directory { listing := some (.other (toString e)) } [])
  else if ← place.pathExists then
    try
      return some (.file {} (← IO.FS.readBinFile path).data.toList)
    catch e =>
      return some (.file { reading := some (.other (toString e)) } [])
  else
    return none

def copyIn (fs : FileSystem) (path : Bytes) : IO FileSystem := do
  match ← entryAt? path.display with
  | some entry => return fs.put path entry
  | none => return fs

/-- The file system with the directory at a path, if it is there on disk. -/
def copyDirectory (fs : FileSystem) (path : Bytes) : IO FileSystem := do
  let place := (← IO.currentDir) / path.display
  return if ← place.isDir then fs.makeDirectory path else fs

/-- The part of the file system that a run with the given arguments asks for. -/
def filesFor (a : Arguments) : IO FileSystem := do
  let here := (FileSystem.plainPlace {} (← IO.currentDir).toString)
  let root := (FileEntry.directory {} []).set here (.directory {} [])
  let empty : FileSystem := { root, workDir := here }
  let fs ← copyIn empty (a.config.getD Config.defaultFile)
  match a.configuration fs with
  | .error _ => return fs
  | .ok c =>
    let fs ← (c.inputs ++ c.folders ++ c.references).foldlM copyIn fs
    match a.output with
    | none => return fs
    | some path => copyDirectory (← copyDirectory fs ((Files.parent? path).getD [])) path

/-- Writes the output file of a run to disk. -/
def copyOut (a : Arguments) (outcome : Outcome) : IO Unit := do
  if let some path := a.output then
    if let .ok text := outcome.files.read path then
      IO.FS.writeFile path text

end Calligraph.Main

open Calligraph in
def main (args : List String) : IO UInt32 := do
  let args := args.map Bytes.ofText
  match Arguments.parse args with
  | .error usage => return usage.code.toUInt32
  | .ok a =>
    match CommandLine.run {} (← Main.filesFor a) args with
    | .error usage => return usage.code.toUInt32
    | .ok outcome =>
      if outcome.code == 0 then Main.copyOut a outcome
      IO.print outcome.stdout.display
      IO.eprintln outcome.message
      return outcome.code.toUInt32
