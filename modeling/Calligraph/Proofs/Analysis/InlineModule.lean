import Calligraph.Analysis
import Calligraph.Proofs.Sketch.Behind
import Calligraph.Proofs.Walk.Embedding
import Calligraph.Sketch.FrontEnd

/-!
# Modules in files of their own

It does not matter whether the items of a module stand in a file of their own or in the file of the
module around it. Scopes and nodes get other indices, but paths mean the same in them: so a project
has the same bindings (`Bindings.build_behind`), and then the walks find the same calls
(`Project.walk_behind`).
-/

namespace Calligraph

/-! ## Bindings -/

namespace Bindings

variable {front : Scope} {s s' : Sketch}

theorem typeAt_behind (h : s.Behind front s') (b : Bindings) (path : List String) (scope : Nat) :
    b.typeAt s' path (scope + 1) = b.typeAt s path scope := by
  simp only [typeAt, h.getElem?_scopes]

theorem routineAt_behind (h : s.Behind front s') (b : Bindings) (path : List String)
    (scope : Nat) : b.routineAt s' path (scope + 1) = b.routineAt s path scope := by
  simp only [routineAt, h.getElem?_scopes, typeAt_behind h]

mutual

theorem resolve_behind (h : s.Behind front s') (b : Bindings) :
    (target : CallTarget) → b.resolve s' target.shift = b.resolve s target
  | .path path scope => routineAt_behind h b path scope
  | .construct path scope => routineAt_behind h b path scope
  | .method receiver name => by
    rw [CallTarget.shift, resolve, resolve, typeOf_behind h b receiver]
  | .dynamic => rfl

theorem typeOf_behind (h : s.Behind front s') (b : Bindings) :
    (hint : TypeHint) → b.typeOf s' hint.shift = b.typeOf s hint
  | .named path scope => typeAt_behind h b path scope
  | .returnOf target => by
    have htarget := resolve_behind h b target
    cases target with
    | construct path scope =>
      simp only [TypeHint.shift, CallTarget.shift, typeOf] at htarget ⊢
      rw [htarget, typeAt_behind h]
    | _ =>
      simp only [TypeHint.shift, CallTarget.shift, typeOf] at htarget ⊢
      rw [htarget]
  | .unknown => rfl

end

theorem isCall_behind (h : s.Behind front s') (b : Bindings) (target : CallTarget) :
    b.isCall s' target.shift = b.isCall s target := by
  cases target with
  | construct path scope =>
    exact congrArg Option.isSome (resolve_behind h b (.construct path scope))
  | _ => rfl

theorem addTypes_behind (h : s.Behind front s') (b : Bindings) : b.addTypes s' = b.addTypes s := by
  unfold addTypes
  rw [h.declarations_eq]
  simp [Declarations.shift, ImplDecl.shift, Function.comp_def]

theorem addTraits_behind (h : s.Behind front s') (b : Bindings) :
    b.addTraits s' = b.addTraits s := by
  have himpls : s'.impls.toList = s.impls.toList.map ImplDecl.shift := by
    rw [h.declarations_eq, Declarations.shift, Array.toList_map]
  unfold addTraits
  rw [himpls, List.foldl_map]
  simp only [ImplDecl.shift, typeAt_behind h]

theorem addDeclared_behind (h : s.Behind front s') (b : Bindings) :
    b.addDeclared s' = b.addDeclared s := by
  have hroutines : s'.routines.toList = s.routines.toList.map RoutineDecl.shift := by
    rw [h.declarations_eq, Declarations.shift, Array.toList_map]
  unfold addDeclared
  rw [hroutines, List.foldl_map]
  simp only [RoutineDecl.shift, RoutineName.ofDecl, typeOf_behind h]

/-- A sketch behind a scope counts as the sketch by itself among whatever other sketches. -/
theorem build_behind (h : s.Behind front s') (before after : List Sketch)
    (libraries : List Library) :
    build (before ++ s' :: after) libraries = build (before ++ s :: after) libraries := by
  simp only [build, List.foldl_append, List.foldl_cons, addTypes_behind h, addTraits_behind h,
    addDeclared_behind h]

end Bindings

/-! ## Walks -/

namespace Project

variable {front : Scope} {s s' : Sketch}

theorem embeds_behind (h : s.Behind front s') (p : Project Sketch.frontEnd) (index : Nat)
    (id : String) :
    WalkView.Embeds (p.view index ⟨id, s⟩) (p.view index ⟨id, s'⟩) (· + 1) where
  index_eq := rfl
  unit_eq := rfl
  kind_eq := h.arena.kind_eq
  children_eq := h.arena.children_eq
  position_eq i hi := h.arena.position_eq i fun hother => nomatch hi.symm.trans hother
  declaring_eq i := by
    show Option.bind ((s'.routineAt (i + 1)).map RoutineName.ofDecl) _ = _
    rw [h.routineAt_eq, Option.map_map]
    rfl
  referenced_eq i := by
    have hresolve : p.bindings.resolve s' ∘ CallTarget.shift = p.bindings.resolve s :=
      funext (Bindings.resolve_behind h p.bindings)
    show Option.bind (((s'.callAt (i + 1)).bind (p.bindings.resolve s')).map _) _ = _
    rw [h.callAt_eq, Option.bind_map, hresolve]
    rfl
  isCall_eq i := by
    have hcall := h.callAt_eq i
    simp only [view, isCall, Sketch.frontEnd]
    rw [hcall]
    cases s.callAt i with
    | none => rfl
    | some target => exact Bindings.isCall_behind h p.bindings target

theorem walk_behind (h : s.Behind front s') (hs : s.arena.IsTree) (hs' : s'.arena.IsTree)
    (p : Project Sketch.frontEnd) (index : Nat) (id : String) :
    p.walk index ⟨id, s'⟩ = p.walk index ⟨id, s⟩ :=
  (embeds_behind h p index id).walk_eq hs hs' h.arena.kind_top h.arena.children_top

/-- Of a project, the walk of a unit depends on the bindings only. -/
theorem walk_eq_of_bindings {fe : FrontEnd} {p q : Project fe} (h : p.bindings = q.bindings) :
    p.walk = q.walk := by
  obtain ⟨name, units, libraries, bindings⟩ := p
  cases h
  rfl

/-- Units that are walked alike can stand for each other. -/
theorem walks_eq_of_unit {fe : FrontEnd} {p q : Project fe}
    {before after : List (ParsedUnit fe.Tree)} {u v : ParsedUnit fe.Tree}
    (hp : p.units = before ++ u :: after) (hq : q.units = before ++ v :: after)
    (hbindings : p.bindings = q.bindings) (hwalk : ∀ index, q.walk index u = q.walk index v) :
    p.walks = q.walks := by
  unfold walks
  rw [walk_eq_of_bindings hbindings, hp, hq, List.mapIdx_append, List.mapIdx_append,
    List.mapIdx_cons, List.mapIdx_cons, hwalk]

/-- **A module means the same in a file of its own and inside of the file around it.** The bindings,
the calls and what could not be found out about them are the same in every unit, whatever the other
units and the libraries are. -/
theorem analyze_inline_module (title : String) (before after : List (ParsedUnit Sketch))
    (libraries : List Library) (id : String) (home : List String) (name : String)
    (pos : Position) (items : List Item) :
    let own := ofUnits Sketch.frontEnd title
      (before ++ ⟨id, .ofItems (home ++ [name]) items⟩ :: after) libraries
    let inline := ofUnits Sketch.frontEnd title
      (before ++ ⟨id, .ofItems home [.module name pos items]⟩ :: after) libraries
    inline.bindings = own.bindings ∧ inline.walks = own.walks ∧ inline.analyze = own.analyze := by
  intro own inline
  have hbehind := Sketch.behind_ofItems home name pos items
  have hbindings : inline.bindings = own.bindings := by
    have htrees (s : Sketch) : (before ++ ⟨id, s⟩ :: after).map ParsedUnit.tree =
        before.map ParsedUnit.tree ++ s :: after.map ParsedUnit.tree := by simp
    have hbuild := Bindings.build_behind hbehind (before.map ParsedUnit.tree)
      (after.map ParsedUnit.tree) libraries
    rw [← htrees, ← htrees] at hbuild
    exact hbuild
  have hwalks : inline.walks = own.walks :=
    walks_eq_of_unit rfl rfl hbindings fun index =>
      walk_behind hbehind (Sketch.isTree_ofItems _ _) (Sketch.isTree_ofItems _ _) own index id
  refine ⟨hbindings, hwalks, ?_⟩
  unfold analyze
  rw [hwalks]

end Project

end Calligraph
