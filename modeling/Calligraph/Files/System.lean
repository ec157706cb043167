import Calligraph.Files.Error
import Calligraph.Files.Path

/-!
# File systems

A tree of files, directories, links and special files, with what is refused in each place, and a
directory in it that paths start from. A place in the tree is given by the names from the root. A
path is followed piece by piece; a link on the way is replaced by what it says.
-/

namespace Calligraph

open Files (Name)

/-- Why a file cannot be opened, where it cannot. -/
structure FileRefusals where
  reading : Option FileError := none
  writing : Option FileError := none
deriving Repr, DecidableEq, Inhabited

structure DirectoryRefusals where
  listing : Option FileError := none
  /-- Why the list of entries breaks off. -/
  goingOn : Option FileError := none
  /-- Why no entry can be added. -/
  adding : Option FileError := none
  /-- Why names cannot be looked up in it. -/
  passing : Option FileError := none
deriving Repr, DecidableEq, Inhabited

/-- A device, a pipe or a socket. -/
structure SpecialFile where
  reading : Except FileError Bytes := .ok []
  writing : Option FileError := none
  /-- What is written there goes to the standard output. -/
  isOutput : Bool := false
deriving Repr, Inhabited

inductive FileEntry where
  | file (refusals : FileRefusals) (content : Bytes)
  | directory (refusals : DirectoryRefusals) (entries : List (Name × FileEntry))
  | link (target : Bytes)
  | special (file : SpecialFile)

namespace FileEntry

def get? : List Name → FileEntry → Option FileEntry
  | [], e => some e
  | name :: place, .directory _ entries => (entries.lookup name).bind (get? place)
  | _ :: _, _ => none

def setEntry (name : Name) (e : FileEntry) : List (Name × FileEntry) → List (Name × FileEntry)
  | [] => [(name, e)]
  | (n, old) :: rest => if n = name then (n, e) :: rest else (n, old) :: setEntry name e rest

/-- Puts `new` at a place. Directories are made on the way; all else on the way stops it. -/
def set : FileEntry → List Name → FileEntry → FileEntry
  | _, [], new => new
  | .directory refusals entries, name :: place, new =>
    let old := (entries.lookup name).getD (.directory {} [])
    .directory refusals (setEntry name (old.set place new) entries)
  | e, _ :: _, _ => e

end FileEntry

structure FileSystem where
  root : FileEntry := .directory {} []
  workDir : List Name := []
  /-- How many bytes the next file that is written can take, if there is a bound. -/
  room : Option Nat := none

namespace FileSystem

/-! ### Paths -/

/-- Where a path leads: to what stands at a place, or to a name that is free in a directory. -/
inductive Spot where
  | taken (place : List Name)
  | free (dir : List Name) (name : Name)
deriving Repr, DecidableEq

/-- The place that a path is seen from, if it is met at `here`. -/
def origin (path : Bytes) (here : List Name) : List Name :=
  if Files.isRooted path then [] else here

/-- Only slashes follow, and the path is to be `created`. -/
def isClosed (created : Bool) (rest : List Bytes) : Bool :=
  created && !rest.isEmpty && rest.all (·.isEmpty)

/-- Follows pieces of a path from a place. Where a link is met, `follow` goes on with its place, its
target and the pieces behind it. If the path is to be `created`, no slash may stand behind its last
name. -/
def lead (fs : FileSystem) (created : Bool)
    (follow : List Name → Bytes → List Bytes → Except FileError Spot) :
    List Name → List Bytes → Except FileError Spot
  | place, [] => .ok (.taken place)
  | place, piece :: rest =>
    match fs.root.get? place with
    | none => .error .notFound
    | some (.directory refusals entries) =>
      if piece = [] then lead fs created follow place rest
      else
        match refusals.passing with
        | some cause => .error cause
        | none =>
          if isClosed created rest then .error .isDirectory
          else if piece = Files.here then lead fs created follow place rest
          else if piece = Files.up then lead fs created follow place.dropLast rest
          else if Files.maxNameBytes < piece.length then .error .nameTooLong
          else
            match Name.ofBytes? piece with
            | none => .error .notFound
            | some name =>
              match entries.lookup name with
              | some (.link target) => follow place target rest
              | some _ => lead fs created follow (place ++ [name]) rest
              | none => if rest.isEmpty then .ok (.free place name) else .error .notFound
    | some _ => .error .notDirectory

/-- Follows pieces of a path with at most a number of links on the way. -/
def walk (fs : FileSystem) (created : Bool) : Nat → List Name → List Bytes → Except FileError Spot
  | 0 => fs.lead created fun _ _ _ => .error .tooManyLinks
  | links + 1 => fs.lead created fun place target rest =>
    walk fs created links (origin target place) (Files.pieces target ++ rest)

def maxLinks : Nat := 40

/-- Why nothing can ever stand at a path. -/
def refusal? (path : Bytes) : Option FileError :=
  if path.any (· == 0) then some .nulInName
  else if path.isEmpty then some .notFound
  else if Files.isTooLong path then some .nameTooLong
  else none

def spot (fs : FileSystem) (created : Bool) (path : Bytes) : Except FileError Spot :=
  match refusal? path with
  | some cause => .error cause
  | none => fs.walk created maxLinks (origin path fs.workDir) (Files.pieces path)

def resolve (fs : FileSystem) (path : Bytes) : Except FileError (List Name) := do
  match ← fs.spot false path with
  | .taken place => return place
  | .free _ _ => throw .notFound

/-! ### Questions -/

def find? (fs : FileSystem) (path : Bytes) : Option FileEntry :=
  match fs.resolve path with
  | .ok place => fs.root.get? place
  | .error _ => none

def isFile (fs : FileSystem) (path : Bytes) : Bool :=
  match fs.find? path with
  | some (.file _ _) => true
  | _ => false

def isDirectory (fs : FileSystem) (path : Bytes) : Bool :=
  match fs.find? path with
  | some (.directory _ _) => true
  | _ => false

/-- The names in a directory, and why there may be more of them. -/
def list (fs : FileSystem) (path : Bytes) : Except FileError (List Name × Option FileError) := do
  match fs.root.get? (← fs.resolve path) with
  | some (.directory refusals entries) =>
    match refusals.listing with
    | some cause => throw cause
    | none => return (entries.map Prod.fst, refusals.goingOn)
  | some _ => throw .notDirectory
  | none => throw .notFound

def read (fs : FileSystem) (path : Bytes) : Except FileError String := do
  let content ← match fs.root.get? (← fs.resolve path) with
    | some (.file refusals content) =>
      match refusals.reading with
      | some cause => .error cause
      | none => .ok content
    | some (.special file) => file.reading
    | some (.directory refusals _) => .error (refusals.listing.getD .isDirectory)
    | some (.link _) | none => .error .notFound
  match content.text? with
  | some text => return text
  | none => throw .notText

/-! ### Changes -/

structure Written where
  files : FileSystem
  /-- What went to the standard output. -/
  shown : Bytes := []
  /-- Why not all was written. -/
  failure : Option FileError := none

/-- Fills the file at a place, which was empty before, as far as there is room. -/
def fill (fs : FileSystem) (place : List Name) (refusals : FileRefusals) (content : Bytes) :
    Written :=
  let written := content.upTo fs.room
  { files := { fs with root := fs.root.set place (.file refusals written) }
    failure := if written.length < content.length then some .noSpace else none }

/-- Writes the file at a path. A file that is there is emptied first, and one that is not is made;
the directory that it is in has to be there. -/
def write (fs : FileSystem) (path content : Bytes) : Written :=
  match fs.spot true path with
  | .error cause => { files := fs, failure := some cause }
  | .ok (.taken place) =>
    match fs.root.get? place with
    | some (.file refusals _) =>
      match refusals.writing with
      | some cause => { files := fs, failure := some cause }
      | none => fs.fill place refusals content
    | some (.special file) =>
      match file.writing with
      | some cause => { files := fs, failure := some cause }
      | none => { files := fs, shown := if file.isOutput then content else [] }
    | some (.directory _ _) => { files := fs, failure := some .isDirectory }
    | some (.link _) | none => { files := fs, failure := some .notFound }
  | .ok (.free dir name) =>
    match fs.root.get? dir with
    | some (.directory refusals _) =>
      match refusals.adding with
      | some cause => { files := fs, failure := some cause }
      | none => fs.fill (dir ++ [name]) {} content
    | _ => { files := fs, failure := some .notDirectory }

/-- The place that a path leads to if every directory on the way is there, and no link. -/
def plainPlace (fs : FileSystem) (path : Bytes) : List Name :=
  (Files.pieces path).foldl (fun place piece =>
    if piece = Files.up then place.dropLast
    else place ++ (Name.ofBytes? piece).toList) (origin path fs.workDir)

/-- Puts an entry at a path, with the directories on the way. -/
def put (fs : FileSystem) (path : Bytes) (e : FileEntry) : FileSystem :=
  { fs with root := fs.root.set (fs.plainPlace path) e }

def makeDirectory (fs : FileSystem) (path : Bytes) : FileSystem :=
  if (fs.root.get? (fs.plainPlace path)).isSome then fs else fs.put path (.directory {} [])

end FileSystem

end Calligraph
