import Calligraph.Proofs.Sketch.Uses

/-!
# Sketching on a desk

A sketch can be made in one pass that adds each node to the arena when it meets it. Such a pass
keeps what is open around it on stacks: the nodes, the scopes, the type parameters and the blocks. A
visit opens and closes them in pairs. Each visit leaves the stacks as it found them (`Desk.Keeps`)
and does what drafting does (`Desk.Follows`).
-/

namespace Calligraph

/-- A sketch in the making, with what is open around the place it has reached, innermost first. -/
structure Desk extends Draft where
  arena : Arena Mark
  parents : List Nat := [0]
  /-- The indices of the open scopes. -/
  openScopes : List Nat := [0]
  typeParams : List Frame := []

namespace Desk

/-- The node that nodes are added under. -/
def parent (s : Desk) : Nat :=
  s.parents.headD 0

def scope (s : Desk) : Nat :=
  s.openScopes.headD 0

/-- Where the pass is, as far as it is known from what is open. -/
def context (s : Desk) : Context :=
  { place := { scope := s.scope, typeParams := s.typeParams }
    scope := s.scopes[s.scope]?.getD {} }

/-- Does something that adds no node. -/
def doing (action : Context → Drafting Unit) (s : Desk) : Desk :=
  { s with toDraft := ((action s.context).run s.toDraft).2 }

/-- Adds a node, which stays open for what is below it. -/
def openNode (kind : NodeKind) (pos : Position) (mark : Mark) (s : Desk) : Desk :=
  { s with
    arena := s.arena.push s.parent kind pos mark
    parents := s.arena.size :: s.parents }

def openBlock (s : Desk) : Desk :=
  { s with locals := [] :: s.locals }

/-- Records a scope and opens it. -/
def openScope (scope : Scope) (s : Desk) : Desk :=
  { s with
    scopes := s.scopes.push scope
    openScopes := s.scopes.size :: s.openScopes }

def openGenerics (generics : Generics) (s : Desk) : Desk :=
  { s with typeParams := generics.frame s.context.place :: s.typeParams }

def inNode (kind : NodeKind) (pos : Position) (mark : Mark) (visit : Desk → Desk) (s : Desk) :
    Desk :=
  let t := visit (s.openNode kind pos mark)
  { t with parents := t.parents.tail }

def inBlock (visit : Desk → Desk) (s : Desk) : Desk :=
  let t := visit s.openBlock
  { t with locals := t.locals.tail }

def inScope (scope : Scope) (visit : Desk → Desk) (s : Desk) : Desk :=
  let t := visit (s.openScope scope)
  { t with openScopes := t.openScopes.tail }

def inGenerics (generics : Generics) (visit : Desk → Desk) (s : Desk) : Desk :=
  let t := visit (s.openGenerics generics)
  { t with typeParams := t.typeParams.tail }

/-- Visits with the names of `frame` in place of all others. -/
def inBody (frame : Frame) (visit : Desk → Desk) (s : Desk) : Desk :=
  { visit { s with locals := [frame] } with locals := s.locals }

/-- The desk at the start of the body of a routine. -/
def openRoutine (path : List String) (sig : Signature) (s : Desk) : Desk :=
  let t := (s.openGenerics sig.generics).doing fun ctx => do
    let _ ← Drafting.declareRoutine ctx.place path sig
  let u := t.openNode .declaration sig.pos (.declaration s.routines.size)
  { u with locals := [[], sig.frame u.context.place] }

/-- The desk at the start of the members of an impl block, which is recorded in the scope of its
own. -/
def openImpl (generics : Generics) (trait : Option Path) (self : Ty) (s : Desk) : Desk :=
  let t := s.openScope { s.context.scope with selfType := some (s.context.selfPath self) }
  (t.openGenerics generics).doing fun ctx => Drafting.declareImpl
    { selfType := ctx.scope.owner .type, trait := trait.map Path.names, scope := ctx.place.scope }

def openTrait (name : String) (generics : Generics) (s : Desk) : Desk :=
  let t := s.openScope { s.context.scope with selfType := some (s.context.scope.home ++ [name]) }
  t.openGenerics generics

def openModule (name : String) (pos : Position) (items : List Item) (s : Desk) : Desk :=
  let t := s.openScope (Scope.ofModule (s.context.scope.home ++ [name]) items)
  t.openNode .other pos .module

/-- Declares a routine. If it has a body, adds its node and visits the body, which sees the names of
the parameters and no others around it. -/
def inRoutine (path : List String) (sig : Signature) (body : Option (Desk → Desk)) : Desk → Desk :=
  inGenerics sig.generics fun s =>
    let t := s.doing fun ctx => do
      let _ ← Drafting.declareRoutine ctx.place path sig
    match body with
    | none => t
    | some visit =>
      t.inNode .declaration sig.pos (.declaration s.routines.size) fun u =>
        u.inBody (sig.frame u.context.place) (inBlock visit)

end Desk

/-- The visit of a pass. -/
def Pass.visit : Pass → Desk → Desk
  | .nothing => id
  | .append first rest => fun s => rest.visit (first.visit s)
  | .before note rest => fun s => rest.visit (s.doing fun ctx => note.draft ctx)
  | .after first note => fun s => (first.visit s).doing fun ctx => note.draft ctx
  | .block inner => Desk.inBlock inner.visit
  | .call pos func below => fun s =>
    s.inNode .call pos (.call (func.target s.context.place s.locals)) below.visit
  | .method pos receiver name below => fun s =>
    s.inNode .call pos (.call (.method (receiver.hint s.context.place s.locals) name)) below.visit
  | .routine owner sig body => fun s =>
    s.inRoutine (s.context.scope.owner owner ++ [sig.name]) sig (some body.visit)
  | .required sig => fun s => s.inRoutine (s.context.scope.owner .type ++ [sig.name]) sig none
  | .implBlock generics trait self members => fun s =>
    s.inScope { s.context.scope with selfType := some (s.context.selfPath self) }
      (Desk.inGenerics generics fun t => members.visit (t.doing fun ctx => Drafting.declareImpl
        { selfType := ctx.scope.owner .type, trait := trait.map Path.names,
          scope := ctx.place.scope }))
  | .traitDef name generics members => fun s =>
    s.inScope { s.context.scope with selfType := some (s.context.scope.home ++ [name]) }
      (Desk.inGenerics generics members.visit)
  | .module name pos items inside => fun s =>
    s.inScope (Scope.ofModule (s.context.scope.home ++ [name]) items)
      (Desk.inNode .other pos .module inside.visit)

/-- Visits an expression. -/
def Expr.visit (e : Expr) : Desk → Desk :=
  e.pass.visit

/-- Visits the items of a file. -/
def Item.visitAll (items : List Item) : Desk → Desk :=
  (Item.passAll items).visit

theorem Arena.graftAll_append {α : Type} (parent : Nat) (bs bs' : List (Branch α)) (a : Arena α) :
    a.graftAll parent (bs ++ bs') = (a.graftAll parent bs).graftAll parent bs' := by
  induction bs generalizing a with
  | nil => simp only [List.nil_append, Arena.graftAll]
  | cons b rest ih => simp only [List.cons_append, Arena.graftAll, ih]

namespace Desk

variable {bound bound' : List String} {r s t : Desk} {f g : Desk → Desk}
  {m n : Context → Drafting (List (Branch Mark))}

@[simp] theorem context_openScope (scope : Scope) (s : Desk) :
    (s.openScope scope).context =
      { place := { s.context.place with scope := s.scopes.size }, scope } := by
  unfold context openScope Desk.scope
  simp

theorem scope_openScope_lt (scope : Scope) (s : Desk) :
    (s.openScope scope).scope < (s.openScope scope).scopes.size := by
  unfold openScope Desk.scope
  simp

/-! ## What a visit leaves alone -/

/-- From the one desk to the other, what is open stays open, the names `bound` are bound in the
innermost block, and no scope is recorded anew. -/
structure Keeps (bound : List String) (s t : Desk) : Prop where
  parents : t.parents = s.parents
  openScopes : t.openScopes = s.openScopes
  typeParams : t.typeParams = s.typeParams
  locals : ∃ new : Frame, new.map Prod.fst = bound.reverse ∧ t.locals = Frame.extend new s.locals
  scopes : ∀ i < s.scopes.size, t.scopes[i]? = s.scopes[i]?

namespace Keeps

theorem refl (s : Desk) : Keeps [] s s :=
  ⟨rfl, rfl, rfl, ⟨[], rfl, (Frame.extend_nil _).symm⟩, fun _ _ => rfl⟩

theorem lt_size (h : Keeps bound s t) {i : Nat} (hi : i < s.scopes.size) : i < t.scopes.size := by
  have hget := h.scopes i hi
  rw [Array.getElem?_eq_getElem hi] at hget
  exact (Array.getElem?_eq_some_iff.1 hget).1

theorem trans (h : Keeps bound r s) (h' : Keeps bound' s t) : Keeps (bound ++ bound') r t := by
  obtain ⟨new, hnames, hlocals⟩ := h.locals
  obtain ⟨new', hnames', hlocals'⟩ := h'.locals
  refine ⟨h'.parents.trans h.parents, h'.openScopes.trans h.openScopes,
    h'.typeParams.trans h.typeParams, ⟨new' ++ new, ?_, ?_⟩, fun i hi => ?_⟩
  · rw [List.map_append, hnames, hnames', List.reverse_append]
  · rw [hlocals', hlocals, Frame.extend_append]
  · rw [h'.scopes i (h.lt_size hi), h.scopes i hi]

theorem scope_eq (h : Keeps bound s t) : t.scope = s.scope :=
  congrArg (List.headD · 0) h.openScopes

theorem scope_lt (h : Keeps bound s t) (hs : s.scope < s.scopes.size) :
    t.scope < t.scopes.size :=
  h.scope_eq ▸ h.lt_size hs

/-- What is known from what is open is known behind the visit too. -/
theorem context_eq (h : Keeps bound s t) (hs : s.scope < s.scopes.size) :
    t.context = s.context := by
  unfold context
  rw [h.scope_eq, h.typeParams, h.scopes _ hs]

/-- A visit that binds nothing leaves the blocks as they are. -/
theorem locals_eq (h : Keeps [] s t) : t.locals = s.locals := by
  obtain ⟨new, hnames, hlocals⟩ := h.locals
  rw [hlocals, List.map_eq_nil_iff.1 hnames, Frame.extend_nil]

theorem inNode {kind : NodeKind} {pos : Position} {mark : Mark} (h : ∀ t, Keeps bound t (f t)) :
    Keeps bound s (s.inNode kind pos mark f) := by
  obtain ⟨hparents, hscopes, hparams, hlocals, hrecorded⟩ := h (s.openNode kind pos mark)
  exact ⟨congrArg List.tail hparents, hscopes, hparams, hlocals, hrecorded⟩

theorem inBlock (h : ∀ t, Keeps bound t (f t)) : Keeps [] s (s.inBlock f) := by
  -- whatever names are bound, they are in the block that is closed
  obtain ⟨hparents, hscopes, hparams, ⟨new, -, hlocals⟩, hrecorded⟩ := h s.openBlock
  refine ⟨hparents, hscopes, hparams, ⟨[], rfl, ?_⟩, hrecorded⟩
  rw [Frame.extend_nil]
  exact congrArg List.tail hlocals

theorem inScope {scope : Scope} (h : ∀ t, Keeps bound t (f t)) :
    Keeps bound s (s.inScope scope f) := by
  obtain ⟨hparents, hscopes, hparams, hlocals, hrecorded⟩ := h (s.openScope scope)
  refine ⟨hparents, congrArg List.tail hscopes, hparams, hlocals, fun i hi => ?_⟩
  have hi' : i < (s.scopes.push scope).size := by
    rw [Array.size_push]
    omega
  exact (hrecorded i hi').trans (Array.getElem?_push_lt hi ▸ (Array.getElem?_eq_getElem hi).symm)

theorem inGenerics {generics : Generics} (h : ∀ t, Keeps bound t (f t)) :
    Keeps bound s (s.inGenerics generics f) := by
  obtain ⟨hparents, hscopes, hparams, hlocals, hrecorded⟩ := h (s.openGenerics generics)
  exact ⟨hparents, hscopes, congrArg List.tail hparams, hlocals, hrecorded⟩

theorem inBody {frame : Frame} (h : ∀ t, Keeps bound t (f t)) : Keeps [] s (s.inBody frame f) := by
  obtain ⟨hparents, hscopes, hparams, -, hrecorded⟩ := h { s with locals := [frame] }
  exact ⟨hparents, hscopes, hparams, ⟨[], rfl, (Frame.extend_nil _).symm⟩, hrecorded⟩

end Keeps

/-! ## What a visit does -/

/-- The desk with nodes added under the open one and with what is found besides. -/
def grow (s : Desk) (found : List (Branch Mark) × Draft) : Desk :=
  { s with toDraft := found.2, arena := s.arena.graftAll s.parent found.1 }

theorem grow_grow (s : Desk) (found found' : List (Branch Mark) × Draft) :
    (s.grow found).grow found' = s.grow (found.1 ++ found'.1, found'.2) := by
  unfold grow
  rw [Arena.graftAll_append]
  rfl

/-- The visit leaves the desk as drafting says, and from any desk whatever leaves what is open as it
is. Drafting knows the scope it is in, so it is compared on desks whose scope is recorded. -/
structure Follows (bound : List String) (f : Desk → Desk)
    (m : Context → Drafting (List (Branch Mark))) : Prop where
  keeps (s : Desk) : Keeps bound s (f s)
  drafts {s : Desk} (hs : s.scope < s.scopes.size) : f s = s.grow ((m s.context).run s.toDraft)

namespace Follows

theorem nothing : Follows [] id fun _ => pure [] :=
  ⟨Keeps.refl, fun _ => rfl⟩

theorem append (h : Follows bound f m) (h' : Follows bound' g n) :
    Follows (bound ++ bound') (fun s => g (f s))
      fun ctx => do let first ← m ctx; return first ++ (← n ctx) := by
  refine ⟨fun s => (h.keeps s).trans (h'.keeps (f s)), fun {s} hs => ?_⟩
  -- the second visit starts in the scope of the first, so drafting goes on in the same context
  rw [h'.drafts ((h.keeps s).scope_lt hs), (h.keeps s).context_eq hs, h.drafts hs, grow_grow]
  rfl

/-- Drafting in other words. -/
theorem congr (h : Follows bound f m) (hrun : ∀ ctx d, (n ctx).run d = (m ctx).run d) :
    Follows bound f n :=
  ⟨h.keeps, fun hs => by rw [hrun]; exact h.drafts hs⟩

theorem node {kind : NodeKind} {pos : Position} (mark : Context → Draft → Mark)
    (h : Follows bound f m) :
    Follows bound (fun s => s.inNode kind pos (mark s.context s.toDraft) f) fun ctx => do
      let d ← get
      let below ← m ctx
      return [.mk kind pos (mark ctx d) below] := by
  refine ⟨fun s => .inNode h.keeps, fun {s} hs => ?_⟩
  unfold inNode
  rw [h.drafts (s := s.openNode kind pos (mark s.context s.toDraft)) hs]
  rfl

theorem block (h : Follows bound f m) :
    Follows [] (inBlock f) fun ctx => Drafting.block (m ctx) := by
  refine ⟨fun s => .inBlock h.keeps, fun {s} hs => ?_⟩
  unfold inBlock
  rw [h.drafts (s := s.openBlock) hs]
  rfl

theorem scope (scope : Context → Scope) (h : Follows bound f m) :
    Follows bound (fun s => s.inScope (scope s.context) f)
      fun ctx => Drafting.enter ctx (scope ctx) >>= m := by
  -- the scope that is opened has just been recorded, so nothing is asked of the scope around it
  refine ⟨fun s => .inScope h.keeps, fun {s} _ => ?_⟩
  unfold inScope
  rw [h.drafts (s.scope_openScope_lt _), context_openScope]
  rfl

theorem generics (generics : Generics) (h : Follows bound f m) :
    Follows bound (inGenerics generics f) fun ctx => m (ctx.under generics) := by
  refine ⟨fun s => .inGenerics h.keeps, fun {s} hs => ?_⟩
  unfold inGenerics
  rw [h.drafts (s := s.openGenerics generics) hs]
  rfl

theorem body (frame : Place → Frame) (h : Follows bound f m) :
    Follows [] (fun s => s.inBody (frame s.context.place) f)
      fun ctx => Drafting.body (frame ctx.place) (m ctx) := by
  refine ⟨fun s => .inBody h.keeps, fun {s} hs => ?_⟩
  unfold inBody
  rw [h.drafts (s := { s with locals := [frame s.context.place] }) hs]
  rfl

/-- Something done that adds no node. -/
theorem doing {action : Context → Drafting Unit}
    (hlocals : ∀ ctx d, ∃ new : Frame, new.map Prod.fst = bound.reverse ∧
      ((action ctx).run d).2.locals = Frame.extend new d.locals)
    (hscopes : ∀ ctx d, ((action ctx).run d).2.scopes = d.scopes) :
    Follows bound (Desk.doing action) fun ctx => do action ctx; return [] := by
  refine ⟨fun s => ⟨rfl, rfl, rfl, hlocals s.context s.toDraft, fun i _ => ?_⟩, fun _ => rfl⟩
  exact congrArg (fun scopes : Array Scope => scopes[i]?) (hscopes s.context s.toDraft)

/-- Something recorded before a visit. -/
theorem behind {action : Context → Drafting Unit}
    (haction : ∀ ctx d, ((action ctx).run d).2.locals = d.locals ∧
      ((action ctx).run d).2.scopes = d.scopes) (h : Follows bound f m) :
    Follows bound (fun s => f (s.doing action)) fun ctx => (do action ctx; m ctx) := by
  have hdoing : Follows [] (Desk.doing action) fun ctx => do action ctx; return [] := by
    refine .doing (fun ctx d => ⟨[], rfl, ?_⟩) fun ctx d => (haction ctx d).2
    rw [Frame.extend_nil]
    exact (haction ctx d).1
  exact (hdoing.append h).congr fun _ _ => rfl

theorem declareImpl (decl : Context → ImplDecl) (h : Follows bound f m) :
    Follows bound (fun s => f (s.doing fun ctx => Drafting.declareImpl (decl ctx)))
      fun ctx => (do Drafting.declareImpl (decl ctx); m ctx) :=
  behind (fun _ _ => ⟨rfl, rfl⟩) h

theorem note (note : Note) :
    Follows note.footprint.bound (Desk.doing fun ctx => note.draft ctx)
      fun ctx => do note.draft ctx; return [] := by
  refine doing (fun ctx d => ?_) fun ctx d => ?_
  · obtain ⟨new, hnames, hlocals, -⟩ := note.draft_uses ctx d d.locals (.refl _ _)
    exact ⟨new, hnames, hlocals⟩
  · cases note with
    | bind pat value => cases value <;> obtain ⟨decls, _ | ⟨frame, outer⟩⟩ := d <;> rfl
    | type name => rfl

/-- A routine is recorded under the index that its node shows. -/
theorem declare (path : List String) (sig : Signature) {f : Nat → Desk → Desk}
    {m : Nat → Context → Drafting (List (Branch Mark))}
    (h : ∀ index, Follows bound (f index) (m index)) :
    Follows bound (fun s => f s.routines.size (s.doing fun ctx => do
        let _ ← Drafting.declareRoutine ctx.place path sig))
      fun ctx => (do let index ← Drafting.declareRoutine ctx.place path sig; m index ctx) := by
  have hbehind (index : Nat) : Follows bound (fun s => f index (s.doing fun ctx => do
      let _ ← Drafting.declareRoutine ctx.place path sig)) _ :=
    behind (fun _ _ => ⟨rfl, rfl⟩) (h index)
  exact ⟨fun s => (hbehind s.routines.size).keeps s, fun hs => (hbehind _).drafts hs⟩

theorem routine (path : List String) (sig : Signature) (h : Follows bound f m) :
    Follows [] (inRoutine path sig (some f)) fun ctx => do
      let index ← Drafting.declareRoutine (ctx.under sig.generics).place path sig
      let below ← Drafting.body (sig.frame (ctx.under sig.generics).place)
        (Drafting.block (m (ctx.under sig.generics)))
      return [.mk .declaration sig.pos (.declaration index) below] := by
  have hbody : Follows [] (fun s => s.inBody (sig.frame s.context.place) (inBlock f)) _ :=
    body (fun place => sig.frame place) (block h)
  have hnode (index : Nat) : Follows [] (inNode .declaration sig.pos (.declaration index) fun u =>
      u.inBody (sig.frame u.context.place) (inBlock f)) _ :=
    node (fun _ _ => .declaration index) hbody
  exact (generics sig.generics (declare path sig hnode)).congr fun _ _ => rfl

theorem required (path : List String) (sig : Signature) :
    Follows [] (inRoutine path sig none) fun ctx => do
      let _ ← Drafting.declareRoutine (ctx.under sig.generics).place path sig
      return [] :=
  (generics sig.generics (declare path sig fun _ => nothing)).congr fun _ _ => rfl

/-- A visit that asks where it starts. -/
theorem ofContext {f : Context → Desk → Desk}
    {m : Context → Context → Drafting (List (Branch Mark))}
    (h : ∀ ctx, Follows bound (f ctx) (m ctx)) :
    Follows bound (fun s => f s.context s) fun ctx => m ctx ctx :=
  ⟨fun s => (h s.context).keeps s, fun hs => (h _).drafts hs⟩

end Follows

end Desk

open Desk (Follows)

/-- Visiting a pass does what drafting it does. -/
theorem Pass.visit_follows (p : Pass) :
    Follows p.footprint.bound p.visit fun ctx => p.draft ctx := by
  induction p with
  | nothing => exact .nothing
  | append first rest ih ih' => exact ih.append ih'
  | before note rest ih => exact ((Follows.note note).append ih).congr fun _ _ => rfl
  | after first note ih =>
    refine (ih.append (Follows.note note)).congr fun ctx d => ?_
    exact congrArg (fun nodes => (nodes, _)) (List.append_nil _).symm
  | block inner ih => exact ih.block
  | call pos func below ih => exact ih.node fun ctx d => .call (func.target ctx.place d.locals)
  | method pos receiver name below ih =>
    exact ih.node fun ctx d => .call (.method (receiver.hint ctx.place d.locals) name)
  | routine owner sig body ih =>
    exact .ofContext fun ctx => .routine (ctx.scope.owner owner ++ [sig.name]) sig ih
  | required sig =>
    exact .ofContext fun ctx => .required (ctx.scope.owner .type ++ [sig.name]) sig
  | implBlock generics trait self members ih =>
    have hmembers := ih.declareImpl fun ctx =>
      { selfType := ctx.scope.owner .type, trait := trait.map Path.names, scope := ctx.place.scope }
    exact (hmembers.generics generics).scope fun ctx =>
      { ctx.scope with selfType := some (ctx.selfPath self) }
  | traitDef name generics members ih =>
    exact (ih.generics generics).scope fun ctx =>
      { ctx.scope with selfType := some (ctx.scope.home ++ [name]) }
  | module name pos items inside ih =>
    exact (ih.node fun _ _ => .module).scope fun ctx =>
      Scope.ofModule (ctx.scope.home ++ [name]) items

/-- **Visiting does what drafting does.** -/
theorem Pass.AccountsFor.visit_follows {p : Pass} {r : Reading} (h : p.AccountsFor r) :
    Follows r.footprint.bound p.visit r.draft := by
  have hdraft : r.draft = fun ctx => p.draft ctx := funext h.draft
  rw [hdraft, h.footprint]
  exact p.visit_follows

end Calligraph
