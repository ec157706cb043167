import Calligraph.Scope
import Calligraph.Syntax.Basic

/-!
# Imports

The names that the `use` declarations of a module bring into it.
-/

namespace Calligraph

/-- One name, or all names, that a `use` declaration brings in. -/
inductive UseLeaf where
  | name (label : String) (path : List String)
  | all (path : List String)
deriving Repr, DecidableEq

mutual

/-- The leaves of a tree under the path `base`, in the order of the text. A final `self` means
`base` itself, and the label `_` names nothing. -/
def UseTree.leaves (base : List String) : UseTree → List UseLeaf
  | .under name rest => rest.leaves (base ++ [name])
  | .leaf "self" => (base.getLast?.map fun last => .name last base).toList
  | .leaf name => [.name name (base ++ [name])]
  | .rename _ "_" => []
  | .rename "self" label => [.name label base]
  | .rename name label => [.name label (base ++ [name])]
  | .all => [.all base]
  | .group trees => UseTree.leavesAll base trees

def UseTree.leavesAll (base : List String) : List UseTree → List UseLeaf
  | [] => []
  | t :: rest => t.leaves base ++ UseTree.leavesAll base rest

end

def Item.useLeaves (items : List Item) : List UseLeaf :=
  items.flatMap fun
    | .uses tree _ => tree.leaves []
    | _ => []

/-- A path of a `use` declaration in the module `home`, seen from the crate root. -/
def absolutePath (home path : List String) : List String :=
  match path with
  | "crate" :: rest => rest
  | "self" :: rest => home ++ rest
  | "super" :: _ => climbSupers home path
  | _ => path

def Scope.ofModule (home : List String) (items : List Item) : Scope :=
  let leaves := Item.useLeaves items
  { home
    imports := leaves.foldl (fun imports leaf =>
      match leaf with
      | .name label path => imports.insert label (absolutePath home path)
      | .all _ => imports) []
    globs := leaves.filterMap fun
      | .name _ _ => none
      | .all path => some (absolutePath home path) }

end Calligraph
