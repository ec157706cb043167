import Calligraph.Proofs.Sketch.Alike
import Calligraph.Proofs.Sketch.Telling

/-!
# Scopes moved by one

Drafting with one more scope in front of all others gives the same sketch with the indices of its
scopes moved by one. `shift` moves the indices in each kind of data; the lemmas on hints and targets
say that what is known about an expression moves along, and `Likeness.behind_kept` that every action
of drafting does.
-/

namespace Calligraph

/-! ## Moving indices -/

mutual

def TypeHint.shift : TypeHint → TypeHint
  | .named path scope => .named path (scope + 1)
  | .returnOf target => .returnOf target.shift
  | .unknown => .unknown

def CallTarget.shift : CallTarget → CallTarget
  | .path path scope => .path path (scope + 1)
  | .construct path scope => .construct path (scope + 1)
  | .method receiver name => .method receiver.shift name
  | .dynamic => .dynamic

end

def Frame.shift (frame : Frame) : Frame :=
  frame.map fun x => (x.1, x.2.shift)

def Place.shift (place : Place) : Place where
  scope := place.scope + 1
  typeParams := place.typeParams.map Frame.shift

def Context.shift (ctx : Context) : Context where
  place := ctx.place.shift
  scope := ctx.scope

def RoutineDecl.shift (d : RoutineDecl) : RoutineDecl :=
  { d with returns := d.returns.shift, scope := d.scope + 1 }

def ImplDecl.shift (d : ImplDecl) : ImplDecl :=
  { d with scope := d.scope + 1 }

def Mark.shift : Mark → Mark
  | .call target => .call target.shift
  | mark => mark

/-- The declarations behind one more scope. -/
def Declarations.shift (d : Declarations) (front : Scope) : Declarations where
  scopes := #[front] ++ d.scopes
  routines := d.routines.map RoutineDecl.shift
  types := d.types
  impls := d.impls.map ImplDecl.shift

/-- The draft behind one more scope. -/
def Draft.shift (d : Draft) (front : Scope) : Draft where
  toDeclarations := d.toDeclarations.shift front
  locals := d.locals.map Frame.shift

mutual

def Branch.shift : Branch Mark → Branch Mark
  | .mk kind position mark below => .mk kind position mark.shift (Branch.shiftAll below)

def Branch.shiftAll : List (Branch Mark) → List (Branch Mark)
  | [] => []
  | b :: rest => b.shift :: Branch.shiftAll rest

end

/-! ## Frames and places -/

theorem Frame.lookup_shift (frame : Frame) (name : String) :
    frame.shift.lookup name = (frame.lookup name).map TypeHint.shift := by
  induction frame with
  | nil => rfl
  | cons x rest ih =>
    obtain ⟨n, hint⟩ := x
    simp only [Frame.shift, List.map_cons, List.lookup_cons] at ih ⊢
    split
    · rfl
    · exact ih

theorem Frame.find?_shift (frames : List Frame) (name : String) :
    Frame.find? (frames.map Frame.shift) name =
      (Frame.find? frames name).map TypeHint.shift := by
  induction frames with
  | nil => rfl
  | cons frame rest ih =>
    simp only [Frame.find?, List.map_cons, List.findSome?_cons, Frame.lookup_shift] at ih ⊢
    cases frame.lookup name with
    | none => exact ih
    | some hint => rfl

theorem Place.boundHint_shift (place : Place) (bounds : List Bound) :
    place.shift.boundHint bounds = (place.boundHint bounds).shift := by
  rcases Place.boundHint_cases bounds with hnone | ⟨path, hpath⟩
  · rw [hnone, hnone]
    rfl
  · rw [hpath, hpath]
    rfl

/-! ## Hints and targets -/

theorem Place.find?_ident_shift (place : Place) (p : Path) :
    p.ident?.bind (Frame.find? place.shift.typeParams) =
      (p.ident?.bind (Frame.find? place.typeParams)).map TypeHint.shift := by
  cases p.ident? with
  | none => rfl
  | some name => exact Frame.find?_shift place.typeParams name

theorem Ty.hint_shift (place : Place) (ty : Ty) : ty.hint place.shift = (ty.hint place).shift := by
  induction ty using Ty.hint_induct with
  | reference life mutable target ih => exact ih
  | paren inner ih => exact ih
  | named rooted segments hnone =>
    simp only [Ty.hint, Place.find?_ident_shift, hnone]
    cases (Path.plain rooted segments).ident?.bind (Frame.find? place.typeParams) <;> rfl
  | pointer rooted segments inner hinner ih =>
    simp only [Ty.hint, Place.find?_ident_shift, hinner, ih]
    cases (Path.plain rooted segments).ident?.bind (Frame.find? place.typeParams) <;> rfl
  | implTrait bounds => exact place.boundHint_shift bounds
  | dynTrait bounds => exact place.boundHint_shift bounds
  | other ty hty =>
    rw [hty, hty]
    rfl

theorem Generics.frame_shift (place : Place) (generics : Generics) :
    generics.frame place.shift = (generics.frame place).shift := by
  unfold Generics.frame
  -- The frame of the parameters moves along, and then each predicate adds to it or does not.
  refine Eq.trans (congrArg (List.foldl _ · _) ?_) (List.foldl_hom Frame.shift ?_)
  · simp [Frame.shift, Place.boundHint_shift]
  · intro frame predicate
    obtain ⟨ty, bounds⟩ := predicate
    cases ty with
    | path path =>
      dsimp only
      cases path.ident? with
      | none => rfl
      | some name =>
        dsimp only
        rw [Frame.lookup_shift]
        cases frame.lookup name with
        | none => simp [Frame.shift, Place.boundHint_shift]
        | some hint =>
          cases hint <;> simp [Frame.shift, Place.boundHint_shift, TypeHint.shift]
    | _ => rfl

theorem Place.under_shift (place : Place) (generics : Generics) :
    place.shift.under generics = (place.under generics).shift := by
  simp only [Place.under, Generics.frame_shift]
  rfl

mutual

theorem Pat.bind_shift (place : Place) (hint : TypeHint) (frame : Frame) :
    (pat : Pat) → pat.bind place.shift hint.shift frame.shift = (pat.bind place hint frame).shift
  | .name n none => rfl
  | .name n (some sub) => by
    have hsub := Pat.bind_shift place .unknown frame sub
    simp only [Pat.bind, TypeHint.shift] at hsub ⊢
    rw [hsub]
    rfl
  | .typed pat ty => by
    simp only [Pat.bind, Ty.hint_shift]
    exact Pat.bind_shift place (ty.hint place) frame pat
  | .inner pat => by
    simp only [Pat.bind]
    exact Pat.bind_shift place hint frame pat
  | .parts pats => by
    simp only [Pat.bind]
    exact Pat.bindAll_shift place frame pats
  | .blank => rfl

theorem Pat.bindAll_shift (place : Place) (frame : Frame) :
    (pats : List Pat) → Pat.bindAll place.shift frame.shift pats =
      (Pat.bindAll place frame pats).shift
  | [] => rfl
  | p :: rest => by
    have hp := Pat.bind_shift place .unknown frame p
    simp only [Pat.bindAll, TypeHint.shift] at hp ⊢
    rw [hp]
    exact Pat.bindAll_shift place (p.bind place .unknown frame) rest

end

theorem Signature.frame_shift (place : Place) (sig : Signature) :
    sig.frame place.shift = (sig.frame place).shift := by
  unfold Signature.frame
  refine Eq.trans (congrArg (List.foldl _ · _) ?_) (List.foldl_hom Frame.shift ?_)
  · rfl
  · intro frame param
    cases param with
    | receiver => rfl
    | typed pat ty => simp only [Ty.hint_shift, Pat.bind_shift]

theorem Path.target_shift (place : Place) (locals : List Frame) (path : Path) :
    path.target place.shift (locals.map Frame.shift) = (path.target place locals).shift := by
  unfold Path.target
  dsimp only
  split
  · rfl
  · simp only [Frame.find?_shift, Option.isSome_map]
    split
    · rfl
    · split <;> rfl
  · split
    · rfl
    · split <;> rfl

namespace Expr

theorem target_shift (place : Place) (locals : List Frame) (e : Expr) :
    e.target place.shift (locals.map Frame.shift) = (e.target place locals).shift := by
  induction e using target_induct with
  | path p held => exact p.target_shift place locals
  | paren inner ih => exact ih
  | attributed attrs inner ih => exact ih
  | other e he =>
    rw [he, he]
    rfl

theorem hint_shift (place : Place) (locals : List Frame) (e : Expr) :
    e.hint place.shift (locals.map Frame.shift) = (e.hint place locals).shift := by
  induction e using hint_induct with
  | path rooted segments held =>
    simp only [hint]
    split
    · simp only [Frame.find?_shift]
      cases Frame.find? locals _ <;> rfl
    · rfl
  | call pos attrs func args =>
    simp only [hint, target_shift]
    cases func.target place locals <;> rfl
  | method pos attrs receiver name args ih =>
    simp only [hint, ih]
    rfl
  | construct p parts => rfl
  | paren inner ih => exact ih
  | attributed attrs inner ih => exact ih
  | borrow inner ih => exact ih
  | cast inner ty held => exact ty.hint_shift place
  | other e he =>
    rw [he, he]
    rfl

end Expr

/-! ## Drafting -/

theorem Branch.forall₂_shift {bs bs' : List (Branch Mark)} :
    List.Forall₂ (fun b b' => b' = b.shift) bs bs' ↔ bs' = Branch.shiftAll bs := by
  constructor
  · intro h
    induction h with
    | nil => rfl
    | cons hb _ ih => rw [Branch.shiftAll, hb, ih]
  · rintro rfl
    induction bs with
    | nil => exact .nil
    | cons b rest ih => exact .cons rfl ih

/-- The second draft is the first one behind one more scope. -/
def Likeness.behind (front : Scope) : Likeness where
  ctx c c' := c' = c.shift
  draft d e := e = d.shift front
  hint h k := k = h.shift
  target t u := u = t.shift
  node b b' := b' = b.shift
  index i j := j = i

theorem Drafting.enter_shift (front scope : Scope) (ctx : Context) :
    Drafting.Alike (Likeness.behind front).draft (Likeness.behind front).ctx
      (Drafting.enter ctx scope) (Drafting.enter ctx.shift scope) := by
  rintro d e rfl
  have hsize : (d.shift front).scopes.size = d.scopes.size + 1 := by
    simp [Draft.shift, Declarations.shift, Nat.add_comm]
  have hpush : (d.shift front).scopes.push scope = #[front] ++ d.scopes.push scope := by
    simp [Draft.shift, Declarations.shift]
  refine ⟨?_, ?_⟩
  · show Context.mk { ctx.place.shift with scope := (d.shift front).scopes.size } scope = _
    rw [hsize]
    rfl
  · show { d.shift front with scopes := (d.shift front).scopes.push scope } = _
    rw [hpush]
    rfl

theorem Draft.shift_push_impl (d : Draft) (front : Scope) (decl : ImplDecl) :
    { d.shift front with impls := (d.shift front).impls.push decl.shift } =
      Draft.shift { d with impls := d.impls.push decl } front := by
  simp [Draft.shift, Declarations.shift]

theorem Draft.shift_push_routine (d : Draft) (front : Scope) (decl : RoutineDecl) :
    { d.shift front with routines := (d.shift front).routines.push decl.shift } =
      Draft.shift { d with routines := d.routines.push decl } front := by
  simp [Draft.shift, Declarations.shift]

theorem Drafting.declareRoutine_shift (front : Scope) (place : Place) (path : List String)
    (sig : Signature) :
    Drafting.Alike (Likeness.behind front).draft (Likeness.behind front).index
      (Drafting.declareRoutine place path sig) (Drafting.declareRoutine place.shift path sig) := by
  rintro d e rfl
  refine ⟨Array.size_map .., ?_⟩
  have hreturns : (sig.output.map (Ty.hint place.shift)).getD .unknown =
      ((sig.output.map (Ty.hint place)).getD .unknown).shift := by
    cases sig.output with
    | none => rfl
    | some ty => exact ty.hint_shift place
  have hpush := d.shift_push_routine front
    ⟨path, sig.renderParams, (sig.output.map (Ty.hint place)).getD .unknown, place.scope⟩
  rw [RoutineDecl.shift] at hpush
  rw [← hreturns] at hpush
  exact hpush

theorem Likeness.behind_kept (front : Scope) : (Likeness.behind front).Kept where
  unknown := rfl
  method name := by rintro rfl; rfl
  expr_target expr := by rintro rfl rfl; exact expr.target_shift _ _
  expr_hint expr := by rintro rfl rfl; exact expr.hint_shift _ _
  call pos := by
    rintro rfl hb
    exact congrArg _ (Branch.forall₂_shift.1 hb)
  declaration pos := by
    rintro rfl hb
    exact congrArg _ (Branch.forall₂_shift.1 hb)
  module pos := by
    intro hb
    exact congrArg _ (Branch.forall₂_shift.1 hb)
  bind pat := by
    rintro rfl rfl d e rfl
    refine ⟨trivial, ?_⟩
    obtain ⟨decls, locals⟩ := d
    cases locals with
    | nil => rfl
    | cons frame outer =>
      show Draft.mk _ (pat.bind _ _ frame.shift :: outer.map Frame.shift) = _
      rw [Context.shift, Pat.bind_shift]
      rfl
  open_block := by rintro d e rfl; rfl
  close_block := by
    rintro d e rfl
    show Draft.mk _ (d.locals.map Frame.shift).tail = Draft.mk _ (d.locals.tail.map Frame.shift)
    rw [List.map_tail]
    rfl
  open_body sig := by
    rintro rfl rfl
    show Draft.mk _ [sig.frame (Place.shift _)] = Draft.mk _ [(sig.frame _).shift]
    rw [Signature.frame_shift]
    rfl
  close_body := by rintro d e d' e' rfl rfl; rfl
  under generics := by
    rintro rfl
    exact congrArg (Context.mk · _) (Place.under_shift _ generics)
  enter_module name items := by
    rintro rfl
    exact Drafting.enter_shift front _ _
  enter_owner path := by
    rintro rfl
    exact Drafting.enter_shift front _ _
  declareType name := by
    rintro rfl d e rfl
    exact ⟨trivial, rfl⟩
  declareImpl := by
    rintro c c' trait rfl d e rfl
    exact ⟨trivial, d.shift_push_impl front ⟨c.scope.owner .type, trait, c.place.scope⟩⟩
  declareRoutine owner sig := by
    rintro rfl
    show Drafting.Alike _ _ _ (Drafting.declareRoutine ((Place.shift _).under sig.generics) _ sig)
    rw [Place.under_shift]
    exact Drafting.declareRoutine_shift front _ _ sig

end Calligraph
