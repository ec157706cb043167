import Calligraph.Files.Bytes

/-!
# Paths of files

A path is bytes in which slashes divide names. Most questions about a path are about its components,
in which repeated slashes and dots that say nothing are gone.
-/

namespace Calligraph.Files

open Bytes (slash)

/-- A single dot: the directory itself. -/
def here : Bytes := [Bytes.dot]

/-- Two dots: the directory above. -/
def up : Bytes := [Bytes.dot, Bytes.dot]

inductive Component where
  /-- The slash that a path from the root starts with. -/
  | root
  /-- A single dot at the start. -/
  | current
  | parent
  | name (bytes : Bytes)
deriving Repr, DecidableEq, Inhabited

/-- What stands between the slashes. -/
def pieces (path : Bytes) : List Bytes :=
  path.splitOn slash

def isRooted (path : Bytes) : Bool :=
  path.head? == some slash

def maxNameBytes : Nat := 255

def maxPathBytes : Nat := 4095

def isTooLong (path : Bytes) : Bool :=
  maxPathBytes < path.length

def component? (piece : Bytes) : Option Component :=
  if piece = [] ∨ piece = here then none
  else if piece = up then some .parent
  else some (.name piece)

/-- The component that a path starts with by its first piece. -/
def leading (rooted : Bool) (first : Option Bytes) : List Component :=
  if rooted then [.root] else if first = some here then [.current] else []

def components (path : Bytes) : List Component :=
  leading (isRooted path) (pieces path).head? ++ (pieces path).filterMap component?

namespace Component

/-- The kind of a component as a number, in the order of components. -/
def rank : Component → Nat
  | .root => 0
  | .current => 1
  | .parent => 2
  | .name _ => 3

def bytes : Component → Bytes
  | .name bytes => bytes
  | _ => []

/-- The order of components: by kind, and names by their bytes. -/
def compare (a b : Component) : Ordering :=
  (Ord.compare a.rank b.rank).then (Ord.compare a.bytes b.bytes)

def name? : Component → Option Bytes
  | .name bytes => some bytes
  | _ => none

end Component

/-- The order of paths goes by their components from the left. -/
def comparePaths (a b : Bytes) : Ordering :=
  List.compareLex Component.compare (components a) (components b)

def fileName? (path : Bytes) : Option Bytes :=
  (components path).getLast?.bind Component.name?

/-- A name divided at its last dot. A dot at the start divides nothing. -/
def divideName (name : Bytes) : Bytes × Option Bytes :=
  match name.reverse.span (· ≠ Bytes.dot) with
  | (_, []) => (name, none)
  | (_, [_]) => (name, none)
  | (ending, _ :: stem) => (stem.reverse, some ending.reverse)

/-- The name at the end of a path without what follows its last dot. -/
def stem? (path : Bytes) : Option Bytes :=
  (fileName? path).map fun name => (divideName name).1

def extension? (path : Bytes) : Option Bytes :=
  (fileName? path).bind fun name => (divideName name).2

/-- The pieces of a path without those at its end that say nothing. -/
def significant (ps : List Bytes) : List Bytes :=
  match ps with
  | [] => []
  | first :: rest => first :: (rest.reverse.dropWhile fun p => p = [] ∨ p = here).reverse

/-- The path of pieces; a single empty piece is the root if the path was `rooted`. -/
def joinPieces (rooted : Bool) (ps : List Bytes) : Bytes :=
  if rooted && ps == [[]] then [slash] else [slash].intercalate ps

def parent? (path : Bytes) : Option Bytes :=
  match significant (pieces path) with
  | [] | [[]] => none
  | [_] => some []
  | ps => some (joinPieces (isRooted path) (significant ps.dropLast))

/-- The path `path` seen from `base`. -/
def join (base path : Bytes) : Bytes :=
  if isRooted path then path
  else if base = [] ∨ base.getLast? = some slash then base ++ path
  else base ++ slash :: path

/-- The names of a path, as they are shown. -/
def names (path : Bytes) : List String :=
  (components path).filterMap fun c => c.name?.map Bytes.display

/-! ### Names -/

/-- The bytes stand for a name, not for a directory by its place. -/
def IsName (bytes : Bytes) : Prop :=
  bytes ≠ [] ∧ bytes ≠ here ∧ bytes ≠ up ∧ slash ∉ bytes

instance : DecidablePred IsName :=
  fun bytes => inferInstanceAs
    (Decidable (bytes ≠ [] ∧ bytes ≠ here ∧ bytes ≠ up ∧ slash ∉ bytes))

theorem IsName.isRooted_eq {bytes : Bytes} (h : IsName bytes) : isRooted bytes = false := by
  unfold isRooted
  rw [beq_eq_false_iff_ne]
  exact fun hhead => h.2.2.2 (List.mem_of_head? hhead)

/-- What an entry of a directory can be called. -/
@[ext]
structure Name where
  bytes : Bytes
  isName : IsName bytes
  short : bytes.length ≤ maxNameBytes
  noNul : 0 ∉ bytes
deriving Repr, DecidableEq

def Name.ofBytes? (bytes : Bytes) : Option Name :=
  if h : IsName bytes ∧ bytes.length ≤ maxNameBytes ∧ 0 ∉ bytes then some ⟨bytes, h.1, h.2.1, h.2.2⟩
  else none

def Name.ofText (text : String) (h : (ofBytes? text).isSome = true) : Name :=
  (ofBytes? text).get h

theorem length_join (dir : Bytes) (name : Name) : dir.length < (join dir name.bytes).length := by
  have hpos := List.length_pos_iff.2 name.isName.1
  unfold join
  rw [name.isName.isRooted_eq, if_neg Bool.false_ne_true]
  split
  · rw [List.length_append]
    omega
  · rw [List.length_append, List.length_cons]
    omega

end Calligraph.Files
