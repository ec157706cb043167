import Calligraph.Proofs.Binding.Member
import Calligraph.Proofs.Scope.Imports

/-!
# Calls by an imported label

What a label stands for is settled when its file is read, before anything is known of what is
declared. The path of an import with an ordinary first name is taken from the crate root then, while
the same path in a call is looked for in the module first, and in what the module imports. So a
label leads to the routine at the crate root if there is one, and in a module below the root it may
lead elsewhere than its path (`Bindings.resolve_import`), as it does in `Bindings.nested`.
-/

namespace Calligraph.Bindings

variable {b : Bindings} {s : Sketch} {here : Scope} {items : List Item} {home : List String}
  {scope : Nat} {label first : String} {path rest : List String} {r : BoundRoutine}

/-- A path leads through the type of its owner to a method. -/
def MethodAt (b : Bindings) (s : Sketch) (path : List String) (scope : Nat) (r : BoundRoutine) :
    Prop :=
  ∃ owner name type, path = owner ++ [name] ∧ owner ≠ [] ∧ b.typeAt s owner scope = some type ∧
    b.methodOf type name = some r

theorem routineAt_of_declaredIn (hscope : s.scopes[scope]? = some here)
    (h : b.declaredIn (here.candidates path) = some r) : b.routineAt s path scope = some r := by
  simp [routineAt, hscope, h]

theorem routineAt_of_methodAt (hscope : s.scopes[scope]? = some here)
    (hnone : b.declaredIn (here.candidates path) = none) (h : b.MethodAt s path scope r) :
    b.routineAt s path scope = some r := by
  obtain ⟨owner, name, type, rfl, howner, htype, hmethod⟩ := h
  simp [routineAt, hscope, hnone, howner, htype, hmethod]

/-- A path leads to a routine at one of the paths that it may mean, or to a method. -/
theorem cases_of_routineAt (hscope : s.scopes[scope]? = some here)
    (h : b.routineAt s path scope = some r) :
    b.declaredIn (here.candidates path) = some r ∨
      b.declaredIn (here.candidates path) = none ∧ b.MethodAt s path scope r := by
  unfold routineAt at h
  rw [hscope, Option.bind_eq_bind, Option.bind_some] at h
  dsimp only at h
  split at h
  · next found hfound =>
    cases h
    exact .inl hfound
  · next hnone =>
    split at h
    · cases h
    · next howner =>
      obtain ⟨type, htype, h⟩ := Option.bind_eq_some_iff.1 h
      obtain ⟨name, hname, hmethod⟩ := Option.bind_eq_some_iff.1 h
      have hsplit : path = path.dropLast ++ [name] :=
        (List.dropLast_append_getLast? name hname).symm
      exact .inr ⟨hnone, path.dropLast, name, type, hsplit, by simpa using howner, htype, hmethod⟩

/-- What a label stands for is asked before everything else that it may mean. -/
theorem declaredIn_candidates_label (hlabel : label ∉ pathKeywords)
    (hlookup : here.imports.lookup label = some path)
    (h : b.routines[pathKey (path ++ rest)]? = some r) :
    b.declaredIn (here.candidates (label :: rest)) = some r := by
  have hhead := Scope.head?_candidates_of_lookup hlabel hlookup rest
  obtain ⟨others, hcandidates⟩ := List.head?_eq_some_iff.1 hhead
  rw [declaredIn, hcandidates, List.findSome?_cons, h]

theorem typeAt_label (hscope : s.scopes[scope]? = some here) (hlabel : label ∉ pathKeywords)
    (hlookup : here.imports.lookup label = some path)
    (h : b.types.contains (pathKey (path ++ rest))) :
    b.typeAt s (label :: rest) scope = some (path ++ rest) := by
  have hhead := Scope.head?_candidates_of_lookup hlabel hlookup rest
  obtain ⟨others, hcandidates⟩ := List.head?_eq_some_iff.1 hhead
  rw [typeAt, hscope, Option.bind_eq_bind, Option.bind_some, hcandidates]
  exact List.find?_cons_of_pos h

theorem declaredIn_candidates_crate (here : Scope) (path : List String) :
    b.declaredIn (here.candidates ("crate" :: path)) = b.routines[pathKey path]? := by
  show [path].findSome? _ = _
  cases h : b.routines[pathKey path]? <;> simp [h]

theorem typeAt_crate {type : List String} (hscope : s.scopes[scope]? = some here)
    (h : b.typeAt s ("crate" :: path) scope = some type) :
    type = path ∧ b.types.contains (pathKey path) := by
  have hfind : [path].find? (fun c => b.types.contains (pathKey c)) = some type :=
    find?_of_typeAt hscope h
  obtain rfl : type = path := List.mem_singleton.1 (List.mem_of_find?_eq_some hfind)
  exact ⟨rfl, by simpa using List.find?_some hfind⟩

/-- The label leads through the same type to the same method. -/
theorem methodAt_label (hscope : s.scopes[scope]? = some here) (hlabel : label ∉ pathKeywords)
    (hlookup : here.imports.lookup label = some path) (hrest : rest ≠ [])
    (h : b.MethodAt s ("crate" :: path ++ rest) scope r) :
    b.MethodAt s (label :: rest) scope r := by
  obtain ⟨owner, name, type, hsplit, -, htype, hmethod⟩ := h
  obtain ⟨init, last, rfl⟩ := (List.eq_nil_or_concat rest).resolve_left hrest
  rw [List.concat_eq_append, ← List.append_assoc] at hsplit
  obtain ⟨rfl, hlast⟩ := List.append_inj' hsplit rfl
  obtain rfl : last = name := List.singleton_inj.1 hlast
  obtain ⟨rfl, hcontains⟩ := typeAt_crate hscope htype
  refine ⟨label :: init, last, path ++ init, ?_, by simp, ?_, hmethod⟩
  · rw [List.concat_eq_append, List.cons_append]
  · exact typeAt_label hscope hlabel hlookup hcontains

/-- The paths that a path with an ordinary first name may mean, besides itself. -/
theorem cases_of_mem_candidates {c : List String} (hfirst : first ∉ pathKeywords)
    (h : c ∈ here.candidates (first :: rest)) :
    (∃ target, here.imports.lookup first = some target ∧ c = target ++ rest) ∨
      c = here.home ++ first :: rest ∨ (∃ glob ∈ here.globs, c = glob ++ first :: rest) ∨
      c = first :: rest := by
  rw [Scope.candidates_of_notMem hfirst, List.mem_eraseDups] at h
  simp only [List.append_assoc, List.mem_append, List.mem_map, Option.mem_toList,
    List.mem_singleton] at h
  rcases h with ⟨target, htarget, rfl⟩ | h | ⟨glob, hglob, rfl⟩ | h
  · exact .inl ⟨target, htarget, rfl⟩
  · exact .inr (.inl h)
  · exact .inr (.inr (.inl ⟨glob, hglob, rfl⟩))
  · exact .inr (.inr (.inr h))

/-- **Where a label and its path part.** In a module, let `label` be bound last to a full path with
an ordinary first name. The label stands for the path from the crate root: if a routine is declared
there, the label leads to it. It also leads to the method that the path leads to from the crate
root, if nothing is declared at what the label may mean otherwise. If a call by the path leads to a
routine and the call by the label does not, the routine was not found at the crate root but under
what the first name stands for, below the module, below a glob, or as a method of a type. -/
theorem resolve_import (hscope : s.scopes[scope]? = some here)
    (hhere : ∃ self, here = { Scope.ofModule home items with selfType := self })
    (hlast : Item.LastBinds items label path) (hlabel : label ∉ pathKeywords)
    (hhead : path.head? = some first) (hfirst : first ∉ pathKeywords) (rest : List String) :
    let byLabel := b.resolve s (.path (label :: rest) scope)
    let byPath := b.resolve s (.path (path ++ rest) scope)
    let fromRoot := b.resolve s (.path ("crate" :: path ++ rest) scope)
    (∀ r, b.routines[pathKey (path ++ rest)]? = some r → fromRoot = some r ∧ byLabel = some r) ∧
    (∀ r, fromRoot = some r → rest ≠ [] →
      (∀ c ∈ here.candidates (label :: rest), c ≠ path ++ rest →
        b.routines[pathKey c]? = none) →
      byLabel = some r) ∧
    ∀ r, byPath = some r → byLabel ≠ some r →
      (∃ target, here.imports.lookup first = some target ∧
        b.routines[pathKey (target ++ path.tail ++ rest)]? = some r) ∨
      b.routines[pathKey (home ++ path ++ rest)]? = some r ∨
      (∃ glob ∈ here.globs, b.routines[pathKey (glob ++ path ++ rest)]? = some r) ∨
      b.MethodAt s (path ++ rest) scope r := by
  intro byLabel byPath fromRoot
  obtain ⟨self, rfl⟩ := hhere
  obtain ⟨below, rfl⟩ := List.head?_eq_some_iff.1 hhead
  have hlookup : (Scope.ofModule home items).imports.lookup label = some (first :: below) := by
    rw [Scope.lookup_of_lastBinds hlast, Scope.absolutePath_of_notMem hfirst]
  have hdeclared {r : BoundRoutine}
      (h : b.routines[pathKey (first :: below ++ rest)]? = some r) : byLabel = some r :=
    routineAt_of_declaredIn hscope (declaredIn_candidates_label hlabel hlookup h)
  refine ⟨fun r h => ⟨?_, hdeclared h⟩, fun r hroot hrest hothers => ?_, fun r hpath hne => ?_⟩
  · exact routineAt_of_declaredIn hscope ((declaredIn_candidates_crate _ _).trans h)
  · rcases cases_of_routineAt hscope hroot with hfound | ⟨hnone, hmethod⟩
    · exact hdeclared ((declaredIn_candidates_crate _ _).symm.trans hfound)
    · -- Nothing is declared at the path itself either, so both calls go on to the type.
      have hunfound : b.routines[pathKey (first :: below ++ rest)]? = none :=
        (declaredIn_candidates_crate _ _).symm.trans hnone
      refine routineAt_of_methodAt hscope (List.findSome?_eq_none_iff.2 fun c hc => ?_)
        (methodAt_label hscope hlabel hlookup hrest hmethod)
      by_cases hself : c = first :: below ++ rest
      · rw [hself, hunfound]
      · exact hothers c hc hself
  · rcases cases_of_routineAt hscope hpath with hfound | ⟨-, hmethod⟩
    · obtain ⟨c, hc, hr⟩ := List.exists_of_findSome?_eq_some hfound
      rcases cases_of_mem_candidates hfirst hc with
        ⟨target, htarget, rfl⟩ | rfl | ⟨glob, hglob, rfl⟩ | rfl
      · exact .inl ⟨target, htarget, by rw [List.append_assoc]; exact hr⟩
      · exact .inr (.inl (by rw [List.append_assoc]; exact hr))
      · exact .inr (.inr (.inl ⟨glob, hglob, by rw [List.append_assoc]; exact hr⟩))
      · exact absurd (hdeclared hr) hne
    · exact .inr (.inr (.inr hmethod))

/-- A module in a module and a function in it, which the outer module has by an import and calls by
its label and by its path. -/
def nested : List Item :=
  let callOf (pos : Position) (names : List String) : Stmt :=
    .expr (.call pos [] (.path (.plain false (names.map .plain)) []) [])
  [.module "sub" ⟨2, 8⟩ [.function ⟨"f", ⟨2, 21⟩, {}, [], none⟩ []],
    .uses (.under "sub" (.leaf "f")) [],
    .function ⟨"g", ⟨4, 7⟩, {}, [], none⟩ [callOf ⟨4, 13⟩ ["f"]],
    .function ⟨"h", ⟨5, 7⟩, {}, [], none⟩ [callOf ⟨5, 13⟩ ["sub", "f"]]]

/-- In a module below the crate root, the path leads to the function and the label does not. -/
theorem resolve_nested :
    let s := Sketch.ofItems [] [.module "m" ⟨1, 4⟩ nested]
    let b := build [s] []
    s.scopes[1]? = some (Scope.ofModule ["m"] nested) ∧
      Item.LastBinds nested "f" ["sub", "f"] ∧
      s.callAt 5 = some (.path ["f"] 1) ∧ s.callAt 7 = some (.path ["sub", "f"] 1) ∧
      (b.resolve s (.path ["sub", "f"] 1)).map BoundRoutine.name = some ⟨["m", "sub", "f"], []⟩ ∧
      b.resolve s (.path ["f"] 1) = none := by
  intro s b
  refine ⟨?_, Item.lastBinds_iff.2 (by decide +kernel), ?_⟩ <;> decide +kernel

theorem resolve_import_nested :
    let s := Sketch.ofItems [] [.module "m" ⟨1, 4⟩ nested]
    let b := build [s] []
    s.scopes[1]? = some (Scope.ofModule ["m"] nested) ∧
      Item.LastBinds nested "f" ["sub", "f"] ∧ "f" ∉ pathKeywords ∧ "sub" ∉ pathKeywords ∧
      ∃ r, b.resolve s (.path ["sub", "f"] 1) = some r ∧ b.resolve s (.path ["f"] 1) ≠ some r ∧
        b.routines[pathKey ["m", "sub", "f"]]? = some r := by
  intro s b
  have hscope : s.scopes[1]? = some (Scope.ofModule ["m"] nested) := by decide +kernel
  have hlast : Item.LastBinds nested "f" ["sub", "f"] := Item.lastBinds_iff.2 (by decide +kernel)
  have hlabel : "f" ∉ pathKeywords := by decide
  have hfirst : "sub" ∉ pathKeywords := by decide
  have hfound : (b.resolve s (.path ["sub", "f"] 1)).isSome := by decide +kernel
  obtain ⟨r, hr⟩ := Option.isSome_iff_exists.1 hfound
  have hnone : b.resolve s (.path ["f"] 1) = none := by decide +kernel
  have hne : b.resolve s (.path ["f"] 1) ≠ some r := by simp [hnone]
  obtain ⟨-, -, horigin⟩ := resolve_import (b := b) hscope ⟨none, rfl⟩ hlast hlabel rfl hfirst []
  refine ⟨hscope, hlast, hlabel, hfirst, r, hr, hne, ?_⟩
  rcases horigin r hr hne with ⟨target, himport, -⟩ | hhome | ⟨glob, hglob, -⟩ | hmethod
  · cases himport
  · exact hhome
  · cases hglob
  · -- There is no type `sub` in the module.
    obtain ⟨owner, name, type, hsplit, -, htype, -⟩ := hmethod
    have howner : ["sub"] ++ ["f"] = owner ++ [name] := hsplit
    obtain ⟨rfl, -⟩ := List.append_inj' howner rfl
    have hno : b.typeAt s ["sub"] 1 = none := by decide +kernel
    rw [hno] at htype
    cases htype

end Calligraph.Bindings
