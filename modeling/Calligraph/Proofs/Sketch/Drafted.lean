import Calligraph.Proofs.Sketch.Pass

/-!
# What drafting does

Drafting changes a draft underneath while it goes through the syntax. `Drafted` says what it can do
on that way, one case for each action, beside what a survey makes of the syntax, and
`Pass.draft_follows` that it does nothing else. So what holds of all drafts is shown by induction
over `Drafted`.
-/

namespace Calligraph

variable {M : Type}

namespace Draft

/-- The draft with one more routine, declared under `owner`. -/
def declare (d : Draft) (place : Place) (owner : List String) (sig : Signature) : Draft :=
  ((Drafting.declareRoutine place (owner ++ [sig.name]) sig).run d).2

/-- A change that adds no node: names are bound, a type or an impl block is recorded. -/
inductive Notes (place : Place) (d : Draft) : Draft → Prop where
  | bind {hint : TypeHint} (pat : Pat)
      (h : hint = .unknown ∨ ∃ e : Expr, hint = e.hint place d.locals) :
      Notes place d ((Drafting.bind place hint pat).run d).2
  | type (path : List String) : Notes place d ((Drafting.declareType path).run d).2
  | impl (selfType : List String) (trait : Option (List String)) :
      Notes place d ((Drafting.declareImpl ⟨selfType, trait, place.scope⟩).run d).2

end Draft

/-- From the first draft, at `place`, drafting adds the nodes and leaves the second draft, where the
survey `v` makes the last argument of the syntax. -/
inductive Drafted (v : Survey M) : Place → Draft → List (Branch Mark) → Draft → M → Prop where
  | nothing {place : Place} {d : Draft} : Drafted v place d [] d v.nothing
  | append {place : Place} {d e f : Draft} {ns ms : List (Branch Mark)} {x y : M} :
      Drafted v place d ns e x → Drafted v place e ms f y →
      Drafted v place d (ns ++ ms) f (v.append x y)
  | call {place : Place} {d e : Draft} {ns : List (Branch Mark)} {x : M} (pos : Position)
      (func : Expr) : Drafted v place d ns e x →
      Drafted v place d (callNode pos (func.target place d.locals) ns) e (v.call pos x)
  | method {place : Place} {d e : Draft} {ns : List (Branch Mark)} {x : M} (pos : Position)
      (receiver : Expr) (name : String) : Drafted v place d ns e x →
      Drafted v place d (callNode pos (.method (receiver.hint place d.locals) name) ns) e
        (v.method pos name x)
  | before {place : Place} {d e f : Draft} {ns : List (Branch Mark)} {x : M} :
      d.Notes place e → Drafted v place e ns f x → Drafted v place d ns f x
  | after {place : Place} {d e f : Draft} {ns : List (Branch Mark)} {x : M} :
      Drafted v place d ns e x → e.Notes place f → Drafted v place d ns f x
  | block {place : Place} {d e : Draft} {ns : List (Branch Mark)} {x : M} :
      Drafted v place { d with locals := [] :: d.locals } ns e x →
      Drafted v place d ns { e with locals := e.locals.tail } x
  | routine {place : Place} {d e : Draft} {ns : List (Branch Mark)} {x : M} (owner : List String)
      (sig : Signature) :
      Drafted v (place.under sig.generics)
        { d.declare (place.under sig.generics) owner sig with
          locals := [sig.frame (place.under sig.generics)] } ns e x →
      Drafted v place d [.mk .declaration sig.pos (.declaration d.routines.size) ns]
        { e with locals := d.locals } (v.routine sig x)
  | required {place : Place} {d : Draft} (owner : List String) (sig : Signature) :
      Drafted v place d [] (d.declare (place.under sig.generics) owner sig) (v.required sig)
  | enter {place : Place} {d e : Draft} {ns : List (Branch Mark)} {x : M} (scope : Scope) :
      Drafted v { place with scope := d.scopes.size } { d with scopes := d.scopes.push scope }
        ns e x →
      Drafted v place d ns e x
  | under {place : Place} {d e : Draft} {ns : List (Branch Mark)} {x : M} (generics : Generics) :
      Drafted v (place.under generics) d ns e x → Drafted v place d ns e x
  | module {place : Place} {d e : Draft} {ns : List (Branch Mark)} {x : M} (pos : Position) :
      Drafted v place d ns e x → Drafted v place d [.mk .other pos .module ns] e (v.module pos x)

/-- From every draft, the action does what drafting can do. -/
def Drafting.Follows (v : Survey M) (place : Place) (m : Drafting (List (Branch Mark))) (x : M) :
    Prop :=
  ∀ d, Drafted v place d (m.run d).1 (m.run d).2 x

theorem Drafting.Follows.enter {v : Survey M} {x : M} (ctx : Context) (scope : Scope)
    {k : Context → Drafting (List (Branch Mark))}
    (h : ∀ inner : Context, Follows v inner.place (k inner) x) :
    Follows v ctx.place (do k (← Drafting.enter ctx scope)) x :=
  fun _ => .enter scope (h ⟨_, scope⟩ _)

/-- A note changes the draft in one of these ways. -/
theorem Note.notes (note : Note) (ctx : Context) (d : Draft) :
    d.Notes ctx.place ((note.draft ctx).run d).2 := by
  cases note with
  | bind pat value =>
    cases value with
    | none => exact .bind pat (.inl rfl)
    | some e => exact .bind pat (.inr ⟨e, rfl⟩)
  | type name => exact .type _

theorem Pass.draft_follows (v : Survey M) (p : Pass) (ctx : Context) :
    Drafting.Follows v ctx.place (p.draft ctx) (p.survey v) := by
  induction p generalizing ctx with
  | nothing => exact fun _ => .nothing
  | append first rest ih ih' => exact fun d => (ih ctx d).append (ih' ctx _)
  | before note rest ih => exact fun d => .before (note.notes ctx d) (ih ctx _)
  | after first note ih => exact fun d => .after (ih ctx d) (note.notes ctx _)
  | block inner ih => exact fun _ => .block (ih ctx _)
  | call pos func below ih => exact fun d => .call pos func (ih ctx d)
  | method pos receiver name below ih => exact fun d => .method pos receiver name (ih ctx d)
  | routine owner sig body ih =>
    exact fun _ => .routine (ctx.scope.owner owner) sig (.block (ih (ctx.under sig.generics) _))
  | required sig => exact fun _ => .required (ctx.scope.owner .type) sig
  | implBlock generics trait self members ih =>
    exact .enter ctx _ fun inner _ =>
      .before (.impl _ _) (.under generics (ih (inner.under generics) _))
  | traitDef name generics members ih =>
    exact .enter ctx _ fun inner _ => .under generics (ih (inner.under generics) _)
  | module name pos items inside ih => exact .enter ctx _ fun inner _ => .module pos (ih inner _)

/-- **Drafting follows every survey.** -/
theorem Pass.AccountsFor.draft_follows {p : Pass} {r : Reading} (h : p.AccountsFor r)
    (v : Survey M) (ctx : Context) :
    Drafting.Follows v ctx.place (r.draft ctx) (r.survey M v) := by
  rw [h.draft, h.survey]
  exact p.draft_follows v ctx

end Calligraph
