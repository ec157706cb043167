import Calligraph.Proofs.Sketch.Lexical
import Calligraph.Proofs.Sketch.TypeParameter

/-!
# Predicates on names that are no parameters

A predicate of a `where` clause can be about any type. Where it is about the bare name of a type
that is no parameter, the name tells what the predicate says from there on, and not the type it
names. Names that no predicate is about are not affected, whatever declarations with type parameters
are open.
-/

namespace Calligraph

/-! ## Parameters of routines -/

/-- The names that a parameter binds. -/
def Param.names : Param → List String
  | .receiver => []
  | .typed pat _ => pat.names

namespace Signature

variable {x : String}

/-- The step of `frame`. -/
def bindParam (place : Place) (frame : Frame) : Param → Frame
  | .receiver => frame
  | .typed pat ty => pat.bind place (ty.hint place) frame

theorem lookup_bindParam (place : Place) (frame : Frame) {param : Param} (h : x ∉ param.names) :
    (bindParam place frame param).lookup x = frame.lookup x := by
  cases param with
  | receiver => rfl
  | typed pat ty =>
    obtain ⟨new, hnames, hbind⟩ := Pat.exists_bind place pat (ty.hint place)
    have hx : List.lookup x new = none := by
      rw [Frame.lookup_eq_none, hnames, List.mem_reverse]
      exact h
    rw [bindParam, hbind, List.lookup_append, hx]
    rfl

/-- A parameter tells what its type tells, unless a later one has the name too. -/
theorem lookup_frame {sig : Signature} {before after : List Param} {ty : Ty}
    (hparams : sig.params = before ++ .typed (.name x none) ty :: after)
    (hafter : ∀ param ∈ after, x ∉ param.names) (place : Place) :
    (sig.frame place).lookup x = some (ty.hint place) := by
  have hframe : sig.frame place = sig.params.foldl (bindParam place) [] := by
    unfold Signature.frame
    congr 1
  rw [hframe, hparams, List.foldl_append, List.foldl_cons,
    Frame.lookup_foldl fun param hparam frame => lookup_bindParam place frame (hafter param hparam)]
  exact List.lookup_cons_self

end Signature

/-! ## Desks that a pass comes by -/

/-- When the visit of the pass starts on the first desk, it comes by the second one: at its start,
at its end, or inside of one of its parts. Beside each desk stand the declarations with type
parameters that are open on it. -/
inductive Pass.ComesBy : Pass → List (Nat × Generics) → Desk → List (Nat × Generics) → Desk →
    Prop where
  | start {p : Pass} {around : List (Nat × Generics)} {s : Desk} : ComesBy p around s around s
  | finish {p : Pass} {around : List (Nat × Generics)} {s : Desk} :
      ComesBy p around s around (p.visit s)
  | first {p q : Pass} {around inner : List (Nat × Generics)} {s t : Desk}
      (h : ComesBy p around s inner t) : ComesBy (.append p q) around s inner t
  | rest {p q : Pass} {around inner : List (Nat × Generics)} {s t : Desk}
      (h : ComesBy q around (p.visit s) inner t) : ComesBy (.append p q) around s inner t
  | before {p : Pass} {note : Note} {around inner : List (Nat × Generics)} {s t : Desk}
      (h : ComesBy p around (s.doing fun ctx => note.draft ctx) inner t) :
      ComesBy (.before note p) around s inner t
  | after {p : Pass} {note : Note} {around inner : List (Nat × Generics)} {s t : Desk}
      (h : ComesBy p around s inner t) : ComesBy (.after p note) around s inner t
  | block {p : Pass} {around inner : List (Nat × Generics)} {s t : Desk}
      (h : ComesBy p around s.openBlock inner t) : ComesBy (.block p) around s inner t
  | call {p : Pass} {pos : Position} {func : Expr} {around inner : List (Nat × Generics)}
      {s t : Desk}
      (h : ComesBy p around
        (s.openNode .call pos (.call (func.target s.context.place s.locals))) inner t) :
      ComesBy (.call pos func p) around s inner t
  | method {p : Pass} {pos : Position} {receiver : Expr} {name : String}
      {around inner : List (Nat × Generics)} {s t : Desk}
      (h : ComesBy p around
        (s.openNode .call pos (.call (.method (receiver.hint s.context.place s.locals) name)))
        inner t) :
      ComesBy (.method pos receiver name p) around s inner t
  /-- The type that a routine gives back is read with its type parameters open. -/
  | head {p : Pass} {owner : Owner} {sig : Signature} {around : List (Nat × Generics)} {s : Desk} :
      ComesBy (.routine owner sig p) around s ((s.scope, sig.generics) :: around)
        (s.openGenerics sig.generics)
  | routine {p : Pass} {owner : Owner} {sig : Signature} {around inner : List (Nat × Generics)}
      {s t : Desk}
      (h : ComesBy p ((s.scope, sig.generics) :: around)
        (s.openRoutine (s.context.scope.owner owner ++ [sig.name]) sig) inner t) :
      ComesBy (.routine owner sig p) around s inner t
  | required {sig : Signature} {around : List (Nat × Generics)} {s : Desk} :
      ComesBy (.required sig) around s ((s.scope, sig.generics) :: around)
        (s.openGenerics sig.generics)
  | implBlock {p : Pass} {generics : Generics} {trait : Option Path} {self : Ty}
      {around inner : List (Nat × Generics)} {s t : Desk}
      (h : ComesBy p ((s.scopes.size, generics) :: around) (s.openImpl generics trait self)
        inner t) :
      ComesBy (.implBlock generics trait self p) around s inner t
  | traitDef {p : Pass} {name : String} {generics : Generics}
      {around inner : List (Nat × Generics)} {s t : Desk}
      (h : ComesBy p ((s.scopes.size, generics) :: around) (s.openTrait name generics) inner t) :
      ComesBy (.traitDef name generics p) around s inner t
  | module {p : Pass} {name : String} {pos : Position} {items : List Item}
      {around inner : List (Nat × Generics)} {s t : Desk}
      (h : ComesBy p around (s.openModule name pos items) inner t) :
      ComesBy (.module name pos items p) around s inner t

namespace Desk

/-- The desks that single steps lead to from the one that the sketch of a file starts on. All that a
visit does to a desk is done in such steps. Along with a desk stand the declarations with type
parameters that are open on it, innermost first, each with the scope that it was opened in. -/
inductive Reached (home : List String) (items : List Item) :
    List (Nat × Generics) → Desk → Prop where
  | start : Reached home items [] (new home items)
  | node {around : List (Nat × Generics)} {s : Desk} (kind : NodeKind) (pos : Position)
      (mark : Mark) (h : Reached home items around s) :
      Reached home items around (s.openNode kind pos mark)
  | nodeEnd {around : List (Nat × Generics)} {s : Desk} (h : Reached home items around s) :
      Reached home items around { s with parents := s.parents.tail }
  | scope {around : List (Nat × Generics)} {s : Desk} (scope : Scope)
      (h : Reached home items around s) : Reached home items around (s.openScope scope)
  | scopeEnd {around : List (Nat × Generics)} {s : Desk} (h : Reached home items around s) :
      Reached home items around { s with openScopes := s.openScopes.tail }
  | generics {around : List (Nat × Generics)} {s : Desk} (generics : Generics)
      (h : Reached home items around s) :
      Reached home items ((s.scope, generics) :: around) (s.openGenerics generics)
  | genericsEnd {inner : Nat × Generics} {around : List (Nat × Generics)} {s : Desk}
      (h : Reached home items (inner :: around) s) :
      Reached home items around { s with typeParams := s.typeParams.tail }
  /-- A block is opened or left, or a body is entered or left. -/
  | locals {around : List (Nat × Generics)} {s : Desk} (locals : List Frame)
      (h : Reached home items around s) : Reached home items around { s with locals }
  | doing {around : List (Nat × Generics)} {s : Desk} (action : Context → Drafting Unit)
      (h : Reached home items around s) : Reached home items around (s.doing action)

/-- The frames of type parameters are those of the open declarations. -/
theorem Reached.typeParams_eq {home : List String} {items : List Item}
    {around : List (Nat × Generics)} {s : Desk} (h : Reached home items around s) :
    s.typeParams = around.map fun d => d.2.frame { scope := d.1 } := by
  induction h with
  | start => rfl
  | node _ _ _ _ ih => exact ih
  | nodeEnd _ ih => exact ih
  | scope _ _ ih => exact ih
  | scopeEnd _ ih => exact ih
  -- what bounds tell depends on the scope alone, not on the parameters around
  | generics generics _ ih => exact congrArg (generics.frame _ :: ·) ih
  | genericsEnd _ ih => exact congrArg List.tail ih
  | locals _ _ ih => exact ih
  | doing _ _ ih => exact ih

variable {home : List String} {items : List Item} {around around' : List (Nat × Generics)}
  {s t : Desk} {n : String}

theorem Reached.openRoutine (h : Reached home items around s) (path : List String)
    (sig : Signature) :
    Reached home items ((s.scope, sig.generics) :: around) (s.openRoutine path sig) :=
  (((h.generics sig.generics).doing _).node .declaration sig.pos _).locals _

theorem Reached.openImpl (h : Reached home items around s) (generics : Generics)
    (trait : Option Path) (self : Ty) :
    Reached home items ((s.scopes.size, generics) :: around) (s.openImpl generics trait self) := by
  unfold Desk.openImpl
  exact ((h.scope _).generics generics).doing _

theorem Reached.openTrait (h : Reached home items around s) (name : String) (generics : Generics) :
    Reached home items ((s.scopes.size, generics) :: around) (s.openTrait name generics) :=
  (h.scope _).generics generics

theorem Reached.openModule (h : Reached home items around s) (name : String) (pos : Position)
    (inside : List Item) : Reached home items around (s.openModule name pos inside) :=
  (h.scope _).node .other pos .module

/-- A visit leads from reached desks to reached desks, and leaves the same declarations open. -/
theorem Reached.visit (h : Reached home items around s) (p : Pass) :
    Reached home items around (p.visit s) := by
  induction p generalizing around s with
  | nothing => exact h
  | append first rest ih ih' => exact ih' (ih h)
  | before note rest ih => exact ih (h.doing _)
  | after first note ih => exact (ih h).doing fun ctx => note.draft ctx
  | block inner ih => exact (ih (h.locals _)).locals _
  | call pos func below ih => exact (ih (h.node _ pos _)).nodeEnd
  | method pos receiver name below ih => exact (ih (h.node _ pos _)).nodeEnd
  | routine owner sig body ih =>
    exact (((ih (h.openRoutine _ sig)).locals _).locals _).nodeEnd.genericsEnd
  | required sig => exact ((h.generics sig.generics).doing _).genericsEnd
  | implBlock generics trait self members ih =>
    exact (ih (h.openImpl generics trait self)).genericsEnd.scopeEnd
  | traitDef name generics members ih =>
    exact (ih (h.openTrait name generics)).genericsEnd.scopeEnd
  | module name pos items inside ih => exact (ih (h.openModule name pos items)).nodeEnd.scopeEnd

/-- All desks that a visit comes by are reached. -/
theorem Reached.comesBy (h : Reached home items around s) {p : Pass}
    (hp : p.ComesBy around s around' t) : Reached home items around' t := by
  induction hp with
  | start => exact h
  | finish => exact h.visit _
  | first _ ih => exact ih h
  | rest _ ih => exact ih (h.visit _)
  | before _ ih => exact ih (h.doing _)
  | after _ ih => exact ih h
  | block _ ih => exact ih (h.locals _)
  | call _ ih => exact ih (h.node _ _ _)
  | method _ ih => exact ih (h.node _ _ _)
  | head => exact h.generics _
  | routine _ ih => exact ih (h.openRoutine _ _)
  | required => exact h.generics _
  | implBlock _ ih => exact ih (h.openImpl _ _ _)
  | traitDef _ ih => exact ih (h.openTrait _ _)
  | module _ ih => exact ih (h.openModule _ _ _)

/-! ## Names that are no parameters -/

/-- Declarations that do not speak of a name make nothing known of it. -/
theorem find?_frames_eq_none (hn : ∀ d ∈ around, n ∉ d.2.params.map Prod.fst)
    (hwhere : ∀ d ∈ around, ¬ d.2.Constrains n) :
    Frame.find? (around.map fun d => d.2.frame { scope := d.1 }) n = none := by
  rw [Frame.find?, List.findSome?_eq_none_iff]
  intro frame hframe
  obtain ⟨d, hd, rfl⟩ := List.mem_map.1 hframe
  exact Generics.lookup_frame_eq_none (hn d hd) (hwhere d hd)

/-- The innermost `where` clause with a predicate on the name decides. -/
theorem find?_frames_of_constrains {inner outer : List (Nat × Generics)} {scope : Nat}
    {generics : Generics}
    (hn : ∀ d ∈ inner ++ (scope, generics) :: outer, n ∉ d.2.params.map Prod.fst)
    (hinner : ∀ d ∈ inner, ¬ d.2.Constrains n) (hwhere : generics.Constrains n) :
    Frame.find? ((inner ++ (scope, generics) :: outer).map fun d => d.2.frame { scope := d.1 }) n =
      some (Place.boundHint { scope } (boundsOn n generics.predicates)) := by
  obtain ⟨hnInner, hnRest⟩ := List.forall_mem_append.1 hn
  have hskip := find?_frames_eq_none hnInner hinner
  have hfound : (generics.frame { scope }).lookup n = some _ :=
    Generics.lookup_frame_of_constrains (List.forall_mem_cons.1 hnRest).1 hwhere
  unfold Frame.find? at hskip ⊢
  rw [List.map_append, List.findSome?_append, hskip, List.map_cons, List.findSome?_cons, hfound]
  rfl

/-- **What a name tells that is no type parameter.** A visit leads from reached desks to reached
desks and comes by no others. On each of them let `n` be a name that no open declaration has as a
parameter. If no `where` clause among them has a predicate on the bare name, then `n`, behind
references and pointers too, tells the type that it names in the current scope, whatever other
predicates there are; and a parameter of a routine of such a type is a receiver of that type in the
body. Otherwise `n` tells what the predicates on it in the innermost such clause say. -/
theorem hint_of_noParameter (h : Reached home items around s)
    (hn : ∀ d ∈ around, n ∉ d.2.params.map Prod.fst) :
    (∀ p : Part, Reached home items around (p.visit s)) ∧
    (∀ p around' t, Pass.ComesBy p around s around' t → Reached home items around' t) ∧
    ((∀ d ∈ around, ¬ d.2.Constrains n) → ∀ ty : Ty, ty.Wraps n →
      ty.hint s.context.place = .named [n] s.scope ∧
      ∀ (sig : Signature) (x : String) (before after : List Param) (held : List Expr),
        sig.params = before ++ .typed (.name x none) ty :: after →
        (∀ param ∈ after, x ∉ param.names) →
        (Expr.path (.ofName x) held).hint s.context.place [[], sig.frame s.context.place] =
          .named [n] s.scope) ∧
    ∀ inner scope generics outer, around = inner ++ (scope, generics) :: outer →
      (∀ d ∈ inner, ¬ d.2.Constrains n) → generics.Constrains n → ∀ ty : Ty, ty.Wraps n →
        ty.hint s.context.place = Place.boundHint { scope } (boundsOn n generics.predicates) := by
  have hopen : s.context.place.typeParams = _ := h.typeParams_eq
  refine ⟨fun p => h.visit p.pass, fun _ _ _ hp => h.comesBy hp, fun hwhere ty hty => ?_, ?_⟩
  · have hhint : ty.hint s.context.place = .named [n] s.scope := by
      rw [hty.hint_eq, Ty.hint_ofName, hopen, find?_frames_eq_none hn hwhere]
      rfl
    refine ⟨hhint, fun sig x before after held hparams hafter => ?_⟩
    have hlookup := Signature.lookup_frame hparams hafter s.context.place
    have hfind : Frame.find? [[], sig.frame s.context.place] x = some (.named [n] s.scope) := by
      simp only [Frame.find?, List.findSome?_cons, List.lookup_nil, hlookup, hhint]
    unfold Path.ofName
    rw [Expr.hint]
    simp [Segment.name, hfind]
  · rintro inner scope generics outer rfl hinner hwhere ty hty
    rw [hty.hint_eq, Ty.hint_ofName, hopen, find?_frames_of_constrains hn hinner hwhere]
    rfl

/-- Predicates on `T`, which is a parameter, and on slices of `S`. -/
def aside : Generics where
  params := [("T", [])]
  predicates := [(.path (.ofName "T"), [.trait false [] (.ofName "Tr")]),
    (.slice (.path (.ofName "S")), [.trait false [] (.ofName "Tr")])]

/-- A predicate on `S`, which is no parameter. -/
def direct : Generics where
  predicates := [(.path (.ofName "S"), [.trait false [] (.ofName "Tr")])]

/-- A routine with the first kind of predicates, by itself and in an impl block with the second. -/
def nested : List Item :=
  [.function ⟨"f", ⟨1, 3⟩, aside, [], none⟩ [],
    .implBlock direct none (.path (.ofName "S"))
      [.function ⟨"f", ⟨2, 3⟩, aside, [], none⟩ (some [])]]

theorem hint_of_noParameter_nested :
    (∃ s, (Item.passAll nested).ComesBy [] (new [] nested) [(0, aside)] s ∧
      (Ty.reference none false (.path (.ofName "S"))).hint s.context.place = .named ["S"] 0) ∧
    ∃ s, (Item.passAll nested).ComesBy [] (new [] nested) [(1, aside), (1, direct)] s ∧
      (Ty.reference none false (.path (.ofName "S"))).hint s.context.place = .named ["Tr"] 1 := by
  have haside : ¬ aside.Constrains "S" := by
    rw [Generics.constrains_iff]
    decide
  have hdirect : direct.Constrains "S" := ⟨_, List.mem_cons_self, rfl⟩
  have hS : (Ty.reference none false (.path (.ofName "S"))).Wraps "S" := .reference _ _ .name
  constructor
  · have hcomes : (Item.passAll nested).ComesBy [] (new [] nested) [(0, aside)] _ :=
      .first (.routine .start)
    obtain ⟨-, -, htold, -⟩ :=
      hint_of_noParameter (n := "S") (Reached.start.comesBy hcomes) (by decide)
    exact ⟨_, hcomes, (htold (List.forall_mem_singleton.2 haside) _ hS).1⟩
  · have hcomes :
        (Item.passAll nested).ComesBy [] (new [] nested) [(1, aside), (1, direct)] _ :=
      .rest (.first (.implBlock (.first (.routine .start))))
    obtain ⟨-, -, -, htold⟩ :=
      hint_of_noParameter (n := "S") (Reached.start.comesBy hcomes) (by decide)
    exact ⟨_, hcomes, htold [(1, aside)] 1 direct [] rfl (List.forall_mem_singleton.2 haside)
      hdirect _ hS⟩

end Desk

/-- A type with a method, a trait with a method of the same name, and a routine that asks for the
trait in its `where` clause and calls the method on a parameter of the type. -/
def Item.constrained : List Item :=
  let method (pos : Position) : Member := .function ⟨"m", pos, {}, [.receiver], none⟩ (some [])
  [.record "S", .traitDef "Tr" {} [method ⟨2, 14⟩],
    .implBlock {} none (.path (.ofName "S")) [method ⟨3, 12⟩],
    .implBlock {} (some (.ofName "Tr")) (.path (.ofName "S")) [],
    .function ⟨"f", ⟨5, 3⟩, Desk.direct,
        [.typed (.name "s" none) (.reference none false (.path (.ofName "S")))], none⟩
      [.expr (.method ⟨5, 28⟩ [] (.path (.ofName "s") []) "m" [])]]

/-- The visit of these items comes by a desk, in the body of `f`, where the name `S` and a parameter
of type `&S` tell the trait and not the type. So the call is one of the method of the trait. -/
theorem Desk.hint_constrained :
    (∃ around s, (Item.passAll Item.constrained).ComesBy [] (new [] Item.constrained) around s ∧
      (∀ d ∈ around, "S" ∉ d.2.params.map Prod.fst) ∧
      (Ty.path (.ofName "S")).hint s.context.place = .named ["Tr"] s.scope ∧
      (Expr.path (.ofName "s") []).hint s.context.place s.locals = .named ["Tr"] s.scope) ∧
    let sketch := Sketch.ofItems [] Item.constrained
    sketch.callAt 4 = some (.method (.named ["Tr"] 0) "m") ∧
    ((Bindings.build [sketch] []).resolve sketch (.method (.named ["Tr"] 0) "m")).map
      BoundRoutine.name = some ⟨["Tr", "m"], []⟩ := by
  refine ⟨⟨_, _, .rest (.rest (.rest (.rest (.first (.routine .start))))), ?_, ?_, ?_⟩, ?_, ?_⟩ <;>
    decide +kernel

end Calligraph
