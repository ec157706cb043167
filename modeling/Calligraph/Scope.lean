/-!
# Scopes

What a name means in a module, an impl block or a trait.
-/

namespace Calligraph

/-- The names brought in by `use`, each with the path it stands for. -/
abbrev Imports := List (String × List String)

/-- Lets `label` stand for `path`, whatever it stood for before. -/
def Imports.insert (imports : Imports) (label : String) (path : List String) : Imports :=
  (label, path) :: imports.filter fun (a, _) => a != label

/-- What names mean in a module, an impl block or a trait. -/
structure Scope where
  /-- The path of the module from the crate root. -/
  home : List String := []
  /-- What `Self` means: the type of the impl block, or the trait. -/
  selfType : Option (List String) := none
  imports : Imports := []
  /-- The paths that everything is brought in from. -/
  globs : List (List String) := []
deriving Repr, DecidableEq, Inhabited

/-- The path `up` levels above `home`, as far as there are levels, with `rest` below it. -/
def climb (home : List String) (up : Nat) (rest : List String) : List String :=
  home.take (home.length - up) ++ rest

/-- The path with its leading `super`s resolved in `home`. -/
def climbSupers (home path : List String) : List String :=
  let up := (path.takeWhile (· == "super")).length
  climb home up (path.drop up)

namespace Scope

/-- The paths from the crate root that `path` may mean here, the likeliest first. -/
def candidates (s : Scope) : List String → List (List String)
  | [] => []
  | first :: rest =>
    match first with
    | "crate" => [rest]
    | "self" => [s.home ++ rest]
    | "super" => [climbSupers s.home (first :: rest)]
    | "Self" => s.selfType.toList.map (· ++ rest)
    | _ =>
      let path := first :: rest
      ((s.imports.lookup first).toList.map (· ++ rest) ++ [s.home ++ path] ++
        s.globs.map (· ++ path) ++ [path]).eraseDups

/-- The likeliest meaning of `path`, or `path` itself if it has none. -/
def qualify (s : Scope) (path : List String) : List String :=
  (s.candidates path).headD path

end Scope

/-- The text that a path is known by. -/
def pathKey (path : List String) : String :=
  "::".intercalate path

end Calligraph
