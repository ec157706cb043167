import Calligraph.Proofs.Sketch.Alike

/-!
# Sketches in another module

What the calls of a file say does not depend on the module that the file is put in. Paths are
written down as they stand in the text, with the index of the scope they stand in; the module only
shows in the paths that declarations are known by and in the scopes themselves. So the sketches of
a file in two modules have the same nodes, and differ only in what `Draft.Moved` leaves out.
-/

namespace Calligraph

/-- The two paths lead to the same place below `home` and below `home'`. -/
def SameBelow (home home' path path' : List String) : Prop :=
  ∃ rest, path = home ++ rest ∧ path' = home' ++ rest

theorem SameBelow.append {home home' path path' : List String}
    (h : SameBelow home home' path path') (name : String) :
    SameBelow home home' (path ++ [name]) (path' ++ [name]) := by
  obtain ⟨rest, rfl, rfl⟩ := h
  exact ⟨rest ++ [name], by simp, by simp⟩

/-- A routine without the path that it is known by. -/
def RoutineDecl.unplaced (d : RoutineDecl) : List String × TypeHint × Nat :=
  (d.params, d.returns, d.scope)

/-- An impl block without the path of its type. -/
def ImplDecl.unplaced (d : ImplDecl) : Option (List String) × Nat :=
  (d.trait, d.scope)

/-- The second draft is of the same text as the first one, but in the module `home'` instead of
`home`. -/
structure Draft.Moved (home home' : List String) (d e : Draft) : Prop where
  locals : e.locals = d.locals
  scopes : e.scopes.size = d.scopes.size
  routines : e.routines.map RoutineDecl.unplaced = d.routines.map RoutineDecl.unplaced
  impls : e.impls.map ImplDecl.unplaced = d.impls.map ImplDecl.unplaced
  types : ∃ below : Array (List String),
    d.types = below.map (home ++ ·) ∧ e.types = below.map (home' ++ ·)

namespace Draft.Moved

variable {home home' : List String} {d e : Draft}

theorem size_routines (h : Moved home home' d e) : d.routines.size = e.routines.size := by
  simpa using congrArg Array.size h.routines.symm

theorem with_locals (h : Moved home home' d e) (locals : List Frame) :
    Moved home home' { d with locals } { e with locals } :=
  { h with locals := rfl }

end Draft.Moved

/-- Places, hints, targets and nodes are the same; paths of declarations may be any. -/
def Likeness.moved (home home' : List String) : Likeness where
  ctx c c' := c'.place = c.place ∧ SameBelow home home' c.scope.home c'.scope.home
  draft := Draft.Moved home home'
  hint h k := h = k
  target t u := t = u
  node b b' := b = b'
  index i j := i = j

theorem Drafting.enter_moved {home home' : List String} {c c' : Context} {s s' : Scope}
    (hplace : c'.place = c.place) (hhome : SameBelow home home' s.home s'.home) :
    Drafting.Alike (Likeness.moved home home').draft (Likeness.moved home home').ctx
      (Drafting.enter c s) (Drafting.enter c' s') := by
  intro d e hd
  refine ⟨⟨?_, hhome⟩, { hd with scopes := ?_ }⟩
  · show ({ c'.place with scope := e.scopes.size } : Place) =
      { c.place with scope := d.scopes.size }
    rw [hplace, hd.scopes]
  · show (e.scopes.push s').size = (d.scopes.push s).size
    rw [Array.size_push, Array.size_push, hd.scopes]

theorem Likeness.moved_kept (home home' : List String) : (Likeness.moved home home').Kept where
  unknown := rfl
  method name := by rintro rfl; rfl
  expr_target expr := by
    rintro ⟨hplace, -⟩ hd
    exact hplace ▸ hd.locals ▸ rfl
  expr_hint expr := by
    rintro ⟨hplace, -⟩ hd
    exact hplace ▸ hd.locals ▸ rfl
  call pos := by
    rintro rfl hb
    exact congrArg _ (List.forall₂_eq_eq_eq ▸ hb)
  declaration pos := by
    rintro rfl hb
    exact congrArg _ (List.forall₂_eq_eq_eq ▸ hb)
  module pos hb := congrArg _ (List.forall₂_eq_eq_eq ▸ hb)
  bind pat := by
    rintro ⟨hplace, -⟩ rfl d e hd
    refine ⟨trivial, ?_⟩
    rw [hplace]
    obtain ⟨decls, locals⟩ := d
    obtain ⟨decls', locals'⟩ := e
    obtain rfl : locals' = locals := hd.locals
    cases locals' with
    | nil => exact hd
    | cons frame outer => exact hd.with_locals _
  open_block {d e} hd := by
    rw [hd.locals]
    exact hd.with_locals _
  close_block {d e} hd := by
    rw [hd.locals]
    exact hd.with_locals _
  open_body {c c' d e} sig := by
    rintro ⟨hplace, -⟩ hd
    rw [hplace]
    exact hd.with_locals _
  close_body hd hd' := by
    rw [hd.locals]
    exact hd'.with_locals _
  under generics := by
    rintro ⟨hplace, hhome⟩
    exact ⟨congrArg (Place.under · generics) hplace, hhome⟩
  enter_module name items := by
    rintro ⟨hplace, hhome⟩
    exact Drafting.enter_moved hplace (hhome.append name)
  enter_owner path := by
    rintro ⟨hplace, hhome⟩
    exact Drafting.enter_moved hplace hhome
  declareType name := by
    rintro ⟨-, hhome⟩ d e hd
    obtain ⟨rest, hpath, hpath'⟩ := hhome.append name
    obtain ⟨below, htypes, htypes'⟩ := hd.types
    refine ⟨trivial, { hd with types := ⟨below.push rest, ?_, ?_⟩ }⟩
    · show d.types.push _ = _
      rw [Array.map_push, htypes, hpath]
    · show e.types.push _ = _
      rw [Array.map_push, htypes', hpath']
  declareImpl := by
    rintro c c' trait ⟨hplace, -⟩ d e hd
    refine ⟨trivial, { hd with impls := ?_ }⟩
    show (e.impls.push _).map _ = (d.impls.push _).map _
    rw [Array.map_push, Array.map_push, hd.impls, hplace]
    rfl
  declareRoutine owner sig := by
    rintro ⟨hplace, -⟩ d e hd
    refine ⟨hd.size_routines, { hd with routines := ?_ }⟩
    show (e.routines.push _).map _ = (d.routines.push _).map _
    rw [Array.map_push, Array.map_push, hd.routines, Context.under, hplace]
    rfl

/-- **Calls say the same in every module.** The sketches of a file in two modules have the same tree
with the same targets, and equally many scopes. Their routines are alike in parameters, return types
and scopes, and their impl blocks in traits and scopes; and their types are those at the same paths
below the two modules. -/
theorem Sketch.ofItems_moved (home home' : List String) (items : List Item) :
    let s := Sketch.ofItems home items
    let s' := Sketch.ofItems home' items
    s'.arena = s.arena ∧ s'.scopes.size = s.scopes.size ∧
    s'.routines.map (fun d => (d.params, d.returns, d.scope)) =
      s.routines.map (fun d => (d.params, d.returns, d.scope)) ∧
    s'.impls.map (fun d => (d.trait, d.scope)) = s.impls.map (fun d => (d.trait, d.scope)) ∧
    ∃ below : Array (List String),
      s.types = below.map (home ++ ·) ∧ s'.types = below.map (home' ++ ·) := by
  intro s s'
  let L := Likeness.moved home home'
  let scope := Scope.ofModule home items
  let scope' := Scope.ofModule home' items
  have hctx : L.ctx { scope } { scope := scope' } :=
    ⟨rfl, [], (List.append_nil home).symm, (List.append_nil home').symm⟩
  have hstart : L.draft { scopes := #[scope] } { scopes := #[scope'] } :=
    ⟨rfl, rfl, rfl, rfl, #[], by simp, by simp⟩
  obtain ⟨hnodes, hdraft⟩ := (Likeness.moved_kept home home').items hctx items _ _ hstart
  have harena : s.arena = s'.arena :=
    congrArg ((Arena.new Mark.root).graftAll 0) (List.forall₂_eq_eq_eq ▸ hnodes)
  exact ⟨harena.symm, hdraft.scopes, hdraft.routines, hdraft.impls, hdraft.types⟩

end Calligraph
