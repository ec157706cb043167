import Calligraph.Config
import Calligraph.FrontEnd

/-!
# The sources of a project

The files that a configuration names, and the module that the place of a file puts it in.
-/

namespace Calligraph

/-! ### Modules -/

/-- The part of a list after the last `x`. -/
def afterLast? (x : String) (xs : List String) : Option (List String) :=
  match xs.reverse.span (· ≠ x) with
  | (_, []) => none
  | (after, _ :: _) => some after.reverse

def withoutEnding (name : String) : String :=
  match name.toList.reverse with
  | 's' :: 'r' :: '.' :: stem => String.ofList stem.reverse
  | _ => name

/-- The module of a file by its path below `src`. A file named `mod` stands for its directory, and
`lib` and `main` for the root. -/
def moduleBelow (path : List String) : List String :=
  match path.getLast? with
  | none => []
  | some file =>
    let above := path.dropLast
    let stem := withoutEnding file
    if stem = "mod" ∨ (above = [] ∧ (stem = "lib" ∨ stem = "main")) then above
    else above ++ [stem]

/-- The module of a file. Outside of any `src` it is the root, and each program below `src/bin` has
a root of its own. -/
def moduleOf (path : Bytes) : List String :=
  match afterLast? "src" (Files.names path) with
  | none => []
  | some ("bin" :: _ :: rest) => moduleBelow rest
  | some ("bin" :: []) => []
  | some below => moduleBelow below

/-! ### Files -/

/-- The path ends in a directory that is not looked into. -/
def isSkipped (path : Bytes) : Bool :=
  match Files.fileName? path with
  | some name => name == "target" || name == ".git"
  | none => false

def isSourcePath (path : Bytes) : Bool :=
  Files.extension? path == some ("rs" : Bytes)

/-- The path alone, if it ends like a source file. -/
def sourceAt (path : Bytes) : List Bytes :=
  if isSourcePath path then [path] else []

namespace FileSystem

/-- A path that leads somewhere is not too long. -/
theorem length_of_isDirectory {fs : FileSystem} {path : Bytes} (h : fs.isDirectory path = true) :
    path.length ≤ Files.maxPathBytes := by
  by_cases hlong : Files.maxPathBytes < path.length
  · have hrefused : ∃ cause, refusal? path = some cause := by
      unfold refusal? Files.isTooLong
      split
      · exact ⟨_, rfl⟩
      · split
        · exact ⟨_, rfl⟩
        · exact ⟨_, if_pos (decide_eq_true hlong)⟩
    obtain ⟨cause, hcause⟩ := hrefused
    simp [isDirectory, find?, resolve, spot, hcause, bind, Except.bind] at h
  · omega

/-- The source files at a path and below it. What is no directory counts by its name alone, except
at the path itself, where it has to be a file. -/
def sourcesBelow (fs : FileSystem) (path : Bytes) : Except RunError (List Bytes) :=
  if isSkipped path then .ok []
  else if fs.isFile path then .ok (sourceAt path)
  else
    match fs.list path with
    | .error cause => .error (.directoryUnreadable path.display cause)
    | .ok (names, goingOn) => do
      let found ← names.mapM fun name =>
        if _h : fs.isDirectory (Files.join path name.bytes) then
          sourcesBelow fs (Files.join path name.bytes)
        else .ok (sourceAt (Files.join path name.bytes))
      match goingOn with
      | some cause => throw (.entryUnreadable cause)
      | none => return found.flatten
termination_by Files.maxPathBytes + 1 - path.length
decreasing_by
  have hlonger := Files.length_join path name
  have hshort := length_of_isDirectory _h
  omega

/-- The source files at a path and below it, in the order of their paths. -/
def sourceFiles (fs : FileSystem) (path : Bytes) : Except RunError (List Bytes) := do
  if (fs.find? path).isNone then return []
  let found ← fs.sourcesBelow path
  return found.mergeSort fun a b => (Files.comparePaths a b).isLE

def source (fs : FileSystem) (path : Bytes) : Except RunError Source :=
  match fs.read path with
  | .ok text => .ok { id := path.display, text, home := moduleOf path }
  | .error cause => .error (.sourceUnreadable path.display cause)

end FileSystem

namespace Config

/-- The paths that a configuration leads to, in the order in which they are reached: the inputs,
then the source files in folders. -/
def reached (c : Config) (fs : FileSystem) : Except RunError (List Bytes) := do
  return c.inputs ++ (← c.folders.mapM fs.sourceFiles).flatten

/-- The paths of the sources: of paths that are shown alike, only the first. -/
def sourcePaths (c : Config) (fs : FileSystem) : Except RunError (List Bytes) := do
  return (← c.reached fs).eraseDupsBy fun p q => p.display == q.display

def collect (c : Config) (fs : FileSystem) : Except RunError (List Source) := do
  let paths ← c.sourcePaths fs
  if c.workspace.isSome then throw .workspace
  paths.mapM fs.source

def referenceAt (fs : FileSystem) (path : Bytes) : Reference :=
  { name := ((Files.stem? path).getD path).display, text := .file path.display (fs.read path) }

def loadReferences (c : Config) (fs : FileSystem) : List Reference :=
  c.references.map (referenceAt fs)

end Config

end Calligraph
