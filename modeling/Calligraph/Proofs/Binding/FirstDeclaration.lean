import Calligraph.Proofs.Binding.Build

/-!
# The first declaration of a path

Which routine a path is bound to depends on the order of the declarations only: those of the units,
then those of the libraries. The full path of a routine leads past all scopes, so a call of it means
the routine that the path is bound to wherever it is written.
-/

namespace Calligraph

/-! ## Calls of full paths -/

/-- The path that a target names, with the scope that it is written in. -/
def CallTarget.named? : CallTarget → Option (List String × Nat)
  | .path p scope => some (p, scope)
  | .construct p scope => some (p, scope)
  | _ => none

theorem CallTarget.mem_scopes_of_named? (target : CallTarget) {path : List String} {scope : Nat}
    (h : target.named? = some (path, scope)) : scope ∈ target.scopes := by
  cases target with
  | path _ _ => cases h; exact List.mem_singleton_self _
  | construct _ _ => cases h; exact List.mem_singleton_self _
  | method _ _ => cases h
  | dynamic => cases h

/-- A path of several names is not the name of a value, whatever values there are. -/
theorem Path.named?_target {rooted : Bool} {segments : List Segment} (place : Place)
    (locals : List Frame) (h : 2 ≤ segments.length) :
    ((Path.plain rooted segments).target place locals).named? =
      some (segments.map Segment.name, place.scope) := by
  match segments, h with
  | first :: second :: rest, _ =>
    have hlast : (first.name :: second.name :: rest.map Segment.name).getLast? = some _ :=
      List.getLast?_eq_some_getLast (List.cons_ne_nil _ _)
    simp only [Path.target, Path.names, List.map_cons, hlast]
    split <;> rfl

theorem Sketch.mem_routines_of_routineAt {s : Sketch} {node : Nat} {d : RoutineDecl}
    (h : s.routineAt node = some d) : d ∈ s.routines := by
  unfold routineAt at h
  split at h
  · exact Array.mem_of_getElem? h
  · cases h

namespace Bindings

variable {b : Bindings} {t : Sketch} {path : List String} {scope : Nat} {r : BoundRoutine}

theorem resolve_of_named? {target : CallTarget} (h : target.named? = some (path, scope)) :
    b.resolve t target = b.routineAt t path scope := by
  cases target with
  | path _ _ => cases h; rfl
  | construct _ _ => cases h; rfl
  | method _ _ => cases h
  | dynamic => cases h

theorem isCall_of_resolve {target : CallTarget} (h : b.resolve t target = some r) :
    b.isCall t target := by
  cases target with
  | construct _ _ => simp [isCall, h]
  | _ => rfl

theorem routineAt_crate (hscope : scope < t.scopes.size)
    (h : b.routines[pathKey path]? = some r) : b.routineAt t ("crate" :: path) scope = some r := by
  have hget : t.scopes[scope]? = some t.scopes[scope] := Array.getElem?_eq_getElem hscope
  simp [routineAt, declaredIn, hget, Scope.candidates, h]

/-- In the unit `t`, calls of a path mean the routine `n`. -/
structure Reaches (b : Bindings) (t : Sketch) (path : List String) (n : RoutineName) : Prop where
  /-- A call that is written in any scope, with any type parameters and values around it. -/
  written : ∀ (place : Place) (locals : List Frame) (rooted : Bool) (segments : List Segment)
    (held : List Expr), place.scope < t.scopes.size → segments.map Segment.name = path →
    (b.resolve t ((Expr.path (.plain rooted segments) held).target place locals)).map
      BoundRoutine.name = some n
  /-- A call in the tree of the unit. -/
  node : ∀ (call : Nat) (target : CallTarget) (scope : Nat), t.callAt call = some target →
    target.named? = some (path, scope) →
    Sketch.frontEnd.referenced b t call = some n ∧ Sketch.frontEnd.isCall b t call

theorem reaches_crate (hscopes : ∀ i ∈ t.scopeIds, i < t.scopes.size) (hpath : path ≠ [])
    (h : b.routines[pathKey path]? = some r) : b.Reaches t ("crate" :: path) r.name where
  written place locals rooted segments held hscope hsegments := by
    -- There are at least two names, so the path is not that of a value in `locals`.
    have hlength : 2 ≤ segments.length := by
      have hsize := congrArg List.length hsegments
      have hpos := List.length_pos_iff.2 hpath
      rw [List.length_map, List.length_cons] at hsize
      omega
    have hnamed : ((Expr.path (.plain rooted segments) held).target place locals).named? = _ :=
      Path.named?_target place locals hlength
    rw [hsegments] at hnamed
    rw [resolve_of_named? hnamed, routineAt_crate hscope h]
    rfl
  node call target scope hcall hnamed := by
    -- The tree names the scope, so the scope is there.
    have hscope : scope ∈ target.scopes := target.mem_scopes_of_named? hnamed
    have hresolve : b.resolve t target = some r := by
      rw [resolve_of_named? hnamed]
      exact routineAt_crate (hscopes scope (Sketch.mem_scopeIds_of_callAt hcall hscope)) h
    simp [Sketch.frontEnd, hcall, hresolve, isCall_of_resolve hresolve]

/-! ## The order of declarations -/

/-- The routines of the units. -/
def declarations (sketches : List Sketch) : List RoutineDecl :=
  sketches.flatMap fun s => s.routines.toList

/-- The names of all routines, in the order in which they count. -/
def names (sketches : List Sketch) (libraries : List Library) : List RoutineName :=
  (declarations sketches).map .ofDecl ++
    libraries.flatMap fun l => l.routines.map fun r => ⟨r.path, r.params⟩

theorem map_name_listed (b : Bindings) (sketches : List Sketch) (libraries : List Library) :
    (b.listed sketches libraries).map BoundRoutine.name = names sketches libraries := by
  simp only [listed, names, declarations, List.map_append, List.map_flatMap, declared, described,
    List.map_map]
  rfl

variable {sketches : List Sketch} {libraries : List Library}

theorem map_name_routines_build (hplain : ∀ s ∈ sketches, s.ReturnsPlain)
    (key : String) :
    ((build sketches libraries).routines[key]?).map BoundRoutine.name =
      (names sketches libraries).find? fun n => pathKey n.path = key := by
  rw [getElem?_routines_build hplain, ← map_name_listed (build sketches libraries), List.find?_map]
  rfl

/-- What libraries declare does not matter to a path that a unit declares. -/
theorem find?_names {key : String} {d : RoutineDecl}
    (h : (declarations sketches).find? (fun e => pathKey e.path = key) = some d)
    (libraries : List Library) :
    (names sketches libraries).find? (fun n => pathKey n.path = key) = some (.ofDecl d) := by
  rw [names, List.find?_append, List.find?_map]
  change (Option.map _ ((declarations sketches).find? fun e => pathKey e.path = key)).or _ = _
  rw [h]
  rfl

theorem path_ne_nil {units : List (List String × List Item)} {s : Sketch}
    (hs : s ∈ units.map fun u => Sketch.ofItems u.1 u.2) {d : RoutineDecl} (hd : d ∈ s.routines) :
    d.path ≠ [] := by
  obtain ⟨⟨home, items⟩, _, rfl⟩ := List.mem_map.1 hs
  have htitle : d.title ∈ (Sketch.ofItems home items).routines.toList.map RoutineDecl.title :=
    List.mem_map_of_mem (Array.mem_toList_iff.2 hd)
  rw [(Sketch.wellFormed_ofItems home items).titles_eq] at htitle
  obtain ⟨head, _, hhead⟩ := List.mem_map.1 htitle
  have hlast : some head.sig.name = d.path.getLast? := congrArg Prod.fst hhead
  intro hnil
  rw [hnil] at hlast
  cases hlast

/-- **The first declaration of a path counts.** A path is bound if a unit or a library declares it,
and then to the first that does; libraries come after the units. A routine that is the first with
its path is what calls of its full path mean everywhere, so it is the same routine where it calls
and where it is called. -/
theorem build_first_declaration (units : List (List String × List Item))
    (libraries : List Library) :
    let sketches := units.map fun u => Sketch.ofItems u.1 u.2
    let b := build sketches libraries
    (∀ key, (b.routines[key]?).map BoundRoutine.name =
      (names sketches libraries).find? fun n => pathKey n.path = key) ∧
    (∀ key, (b.routines[key]?).isSome ↔ ∃ n ∈ names sketches libraries, pathKey n.path = key) ∧
    (∀ s ∈ sketches, ∀ (node : Nat) (d : RoutineDecl), s.routineAt node = some d →
      (declarations sketches).find? (fun e => pathKey e.path = pathKey d.path) = some d →
      Sketch.frontEnd.declared b s node = some (.ofDecl d) ∧
        ∀ t ∈ sketches, b.Reaches t ("crate" :: d.path) (.ofDecl d)) ∧
    ∀ (others : List Library) (key : String),
      (∃ d ∈ declarations sketches, pathKey d.path = key) →
        ((build sketches others).routines[key]?).map BoundRoutine.name =
          (b.routines[key]?).map BoundRoutine.name := by
  intro sketches b
  have hplain (s : Sketch) (hs : s ∈ sketches) : s.ReturnsPlain := Sketch.returnsPlain_of_mem hs
  have hnames (libraries : List Library) (key : String) :
      ((build sketches libraries).routines[key]?).map BoundRoutine.name =
        (names sketches libraries).find? fun n => pathKey n.path = key :=
    map_name_routines_build hplain key
  refine ⟨hnames libraries, fun key => ?_, fun s hs node d hnode hfirst => ?_,
    fun others key hkey => ?_⟩
  · have hsome := congrArg Option.isSome (hnames libraries key)
    rw [Option.isSome_map] at hsome
    rw [hsome, List.find?_isSome]
    simp
  · have hd : d ∈ s.routines := Sketch.mem_routines_of_routineAt hnode
    obtain ⟨r, hr, hname⟩ := Option.map_eq_some_iff.1
      ((hnames libraries (pathKey d.path)).trans (find?_names hfirst libraries))
    refine ⟨by simp [Sketch.frontEnd, hnode], fun t ht => ?_⟩
    obtain ⟨⟨home, items⟩, _, rfl⟩ := List.mem_map.1 ht
    rw [← hname]
    exact reaches_crate (Sketch.wellFormed_ofItems home items).scope_lt (path_ne_nil hs hd) hr
  · obtain ⟨d, hd, hpath⟩ := hkey
    obtain ⟨first, hfirst⟩ : ∃ first, (declarations sketches).find?
        (fun e => pathKey e.path = key) = some first :=
      Option.isSome_iff_exists.1 (List.find?_isSome.2 ⟨d, hd, by simpa using hpath⟩)
    rw [hnames others, hnames libraries, find?_names hfirst, find?_names hfirst]

/-- Two units and a library that share a path, and a call of it in the second unit. -/
theorem build_first_declaration_sharedPath :
    let call : Expr :=
      .call ⟨2, 2⟩ [] (.path (.plain false [.plain "crate", .plain "m", .plain "f"]) []) []
    let units : List (List String × List Item) :=
      [(["m"], [.function ⟨"f", ⟨1, 3⟩, {}, [], none⟩ []]),
        (["m"], [.function ⟨"f", ⟨1, 3⟩, {}, [.receiver], none⟩ [.expr call]])]
    let sketches := units.map fun u => Sketch.ofItems u.1 u.2
    let b := build sketches [⟨"l", [⟨["m", "f"], ["u8"], none⟩]⟩]
    ∃ s ∈ sketches, ∃ t ∈ sketches, s.routineAt 1 = some ⟨["m", "f"], [], .unknown, 0⟩ ∧
      t.callAt 2 = some (.path ["crate", "m", "f"] 0) ∧
      Sketch.frontEnd.declared b s 1 = some ⟨["m", "f"], []⟩ ∧
      Sketch.frontEnd.referenced b t 2 = some ⟨["m", "f"], []⟩ := by
  intro call units sketches b
  have hs : sketches[0] ∈ sketches := List.mem_cons_self
  have ht : sketches[1] ∈ sketches := List.mem_cons_of_mem _ List.mem_cons_self
  have hnode : sketches[0].routineAt 1 = some ⟨["m", "f"], [], .unknown, 0⟩ := by decide
  have hcall : sketches[1].callAt 2 = some (.path ["crate", "m", "f"] 0) := by decide
  obtain ⟨hdeclared, hreaches⟩ :=
    (build_first_declaration units _).2.2.1 _ hs 1 _ hnode (by decide)
  exact ⟨_, hs, _, ht, hnode, hcall, hdeclared, ((hreaches _ ht).node 2 _ 0 hcall rfl).1⟩

end Bindings

end Calligraph
