import Mathlib.Data.List.Forall2
import Calligraph.Proofs.Sketch.Pass

/-!
# Drafts that are alike

Two sketches of the same items can be compared by a relation between what is known where they are
drafted. `Likeness` collects such relations, one for each kind of data, and `Kept` says that every
single action of drafting keeps them. Then drafting the items of a file keeps them (`Kept.items`):
an instance has to look at single actions only.
-/

namespace Calligraph

open List (Forall₂)

variable {α β γ δ : Type}

/-! ## Actions that are alike -/

/-- From drafts that `D` relates, the actions give results that `N` relates and leave drafts that
`D` relates. -/
def Drafting.Alike (D : Draft → Draft → Prop) (N : α → β → Prop) (m : Drafting α)
    (n : Drafting β) : Prop :=
  ∀ d e, D d e → N (m.run d).1 (n.run e).1 ∧ D (m.run d).2 (n.run e).2

namespace Drafting.Alike

variable {D : Draft → Draft → Prop} {N : α → β → Prop} {M : γ → δ → Prop}

theorem pure {a : α} {b : β} (h : N a b) :
    Alike D N (Pure.pure a : Drafting α) (Pure.pure b : Drafting β) :=
  fun _ _ hd => ⟨h, hd⟩

theorem bind {m : Drafting α} {n : Drafting β} {f : α → Drafting γ} {g : β → Drafting δ}
    (h : Alike D N m n) (hf : ∀ a b, N a b → Alike D M (f a) (g b)) :
    Alike D M (m >>= f) (n >>= g) := by
  intro d e hd
  obtain ⟨hn, hd'⟩ := h d e hd
  exact hf _ _ hn _ _ hd'

theorem get : Alike D D (MonadState.get : Drafting Draft) MonadState.get :=
  fun _ _ hd => ⟨hd, hd⟩

/-- Results that are lists are alike one after the other. -/
theorem append {R : α → β → Prop} {m m' : Drafting (List α)} {n n' : Drafting (List β)}
    (h : Alike D (Forall₂ R) m n) (h' : Alike D (Forall₂ R) m' n') :
    Alike D (Forall₂ R)
      (do let first ← m; return first ++ (← m')) (do let first ← n; return first ++ (← n')) :=
  h.bind fun _ _ h₁ => h'.bind fun _ _ h₂ => .pure (List.rel_append h₁ h₂)

end Drafting.Alike

/-! ## Likenesses -/

/-- Relations between what two drafts know. -/
structure Likeness where
  ctx : Context → Context → Prop
  draft : Draft → Draft → Prop
  hint : TypeHint → TypeHint → Prop
  target : CallTarget → CallTarget → Prop
  node : Branch Mark → Branch Mark → Prop
  /-- Indices of routines. -/
  index : Nat → Nat → Prop

namespace Likeness

/-- The actions do the same as far as `L` tells. -/
def Acts (L : Likeness) (m n : Drafting Unit) : Prop :=
  Drafting.Alike L.draft (fun _ _ => True) m n

/-- The actions draft nodes that are alike. -/
def Drafts (L : Likeness) (m n : Drafting (List (Branch Mark))) : Prop :=
  Drafting.Alike L.draft (Forall₂ L.node) m n

/-- Every single action of drafting keeps the relations. -/
structure Kept (L : Likeness) : Prop where
  unknown : L.hint .unknown .unknown
  method {h k : TypeHint} (name : String) : L.hint h k → L.target (.method h name) (.method k name)
  expr_target {c c' : Context} {d e : Draft} (expr : Expr) : L.ctx c c' → L.draft d e →
    L.target (expr.target c.place d.locals) (expr.target c'.place e.locals)
  expr_hint {c c' : Context} {d e : Draft} (expr : Expr) : L.ctx c c' → L.draft d e →
    L.hint (expr.hint c.place d.locals) (expr.hint c'.place e.locals)
  call {t u : CallTarget} {below below' : List (Branch Mark)} (pos : Position) :
    L.target t u → Forall₂ L.node below below' →
    L.node (.mk .call pos (.call t) below) (.mk .call pos (.call u) below')
  declaration {i j : Nat} {below below' : List (Branch Mark)} (pos : Position) :
    L.index i j → Forall₂ L.node below below' →
    L.node (.mk .declaration pos (.declaration i) below)
      (.mk .declaration pos (.declaration j) below')
  module {below below' : List (Branch Mark)} (pos : Position) : Forall₂ L.node below below' →
    L.node (.mk .other pos .module below) (.mk .other pos .module below')
  bind {c c' : Context} {h k : TypeHint} (pat : Pat) : L.ctx c c' → L.hint h k →
    L.Acts (Drafting.bind c.place h pat) (Drafting.bind c'.place k pat)
  open_block {d e : Draft} : L.draft d e →
    L.draft { d with locals := [] :: d.locals } { e with locals := [] :: e.locals }
  close_block {d e : Draft} : L.draft d e →
    L.draft { d with locals := d.locals.tail } { e with locals := e.locals.tail }
  open_body {c c' : Context} {d e : Draft} (sig : Signature) : L.ctx c c' → L.draft d e →
    L.draft { d with locals := [sig.frame c.place] } { e with locals := [sig.frame c'.place] }
  close_body {d e d' e' : Draft} : L.draft d e → L.draft d' e' →
    L.draft { d' with locals := d.locals } { e' with locals := e.locals }
  under {c c' : Context} (generics : Generics) : L.ctx c c' →
    L.ctx (c.under generics) (c'.under generics)
  enter_module {c c' : Context} (name : String) (items : List Item) : L.ctx c c' →
    Drafting.Alike L.draft L.ctx
      (Drafting.enter c (Scope.ofModule (c.scope.home ++ [name]) items))
      (Drafting.enter c' (Scope.ofModule (c'.scope.home ++ [name]) items))
  enter_owner {c c' : Context} (path : Scope → List String) : L.ctx c c' →
    Drafting.Alike L.draft L.ctx
      (Drafting.enter c { c.scope with selfType := some (path c.scope) })
      (Drafting.enter c' { c'.scope with selfType := some (path c'.scope) })
  declareType {c c' : Context} (name : String) : L.ctx c c' →
    L.Acts (Drafting.declareType (c.scope.home ++ [name]))
      (Drafting.declareType (c'.scope.home ++ [name]))
  declareImpl {c c' : Context} (trait : Option (List String)) : L.ctx c c' →
    L.Acts
      (Drafting.declareImpl { selfType := c.scope.owner .type, trait, scope := c.place.scope })
      (Drafting.declareImpl { selfType := c'.scope.owner .type, trait, scope := c'.place.scope })
  declareRoutine {c c' : Context} (owner : Owner) (sig : Signature) : L.ctx c c' →
    Drafting.Alike L.draft L.index
      (Drafting.declareRoutine (c.under sig.generics).place
        (c.scope.owner owner ++ [sig.name]) sig)
      (Drafting.declareRoutine (c'.under sig.generics).place
        (c'.scope.owner owner ++ [sig.name]) sig)

namespace Kept

variable {L : Likeness}

theorem block (hL : L.Kept) {m n : Drafting (List (Branch Mark))} (h : L.Drafts m n) :
    L.Drafts (Drafting.block m) (Drafting.block n) := by
  intro d e hd
  obtain ⟨hn, hd'⟩ := h _ _ (hL.open_block hd)
  exact ⟨hn, hL.close_block hd'⟩

theorem body (hL : L.Kept) {c c' : Context} (hc : L.ctx c c') (sig : Signature)
    {m n : Drafting (List (Branch Mark))} (h : L.Drafts m n) :
    L.Drafts (Drafting.body (sig.frame c.place) m) (Drafting.body (sig.frame c'.place) n) := by
  intro d e hd
  obtain ⟨hn, hd'⟩ := h _ _ (hL.open_body sig hc hd)
  exact ⟨hn, hL.close_body hd hd'⟩

/-! ## Drafting syntax -/

theorem note (hL : L.Kept) {c c' : Context} (hc : L.ctx c c') (note : Note) :
    L.Acts (note.draft c) (note.draft c') := by
  cases note with
  | bind pat value =>
    cases value with
    | none => exact hL.bind pat hc hL.unknown
    | some e => exact Drafting.Alike.get.bind fun _ _ hd => hL.bind pat hc (hL.expr_hint e hc hd)
  | type name => exact hL.declareType name hc

theorem pass (hL : L.Kept) (p : Pass) {c c' : Context} (hc : L.ctx c c') :
    L.Drafts (p.draft c) (p.draft c') := by
  induction p generalizing c c' with
  | nothing => exact .pure .nil
  | append first rest ih ih' => exact .append (ih hc) (ih' hc)
  | before note rest ih => exact (hL.note hc note).bind fun _ _ _ => ih hc
  | after first note ih =>
    exact (ih hc).bind fun _ _ hn => (hL.note hc note).bind fun _ _ _ => .pure hn
  | block inner ih => exact hL.block (ih hc)
  | call pos func below ih =>
    exact Drafting.Alike.get.bind fun _ _ hd => (ih hc).bind fun _ _ hb =>
      .pure (.cons (hL.call pos (hL.expr_target func hc hd) hb) .nil)
  | method pos receiver name below ih =>
    exact Drafting.Alike.get.bind fun _ _ hd => (ih hc).bind fun _ _ hb =>
      .pure (.cons (hL.call pos (hL.method name (hL.expr_hint receiver hc hd)) hb) .nil)
  | routine owner sig body ih =>
    have hinner := hL.under sig.generics hc
    exact (hL.declareRoutine owner sig hc).bind fun _ _ hi =>
      (hL.body hinner sig (hL.block (ih hinner))).bind fun _ _ hb =>
        .pure (.cons (hL.declaration sig.pos hi hb) .nil)
  | required sig => exact (hL.declareRoutine .type sig hc).bind fun _ _ _ => .pure .nil
  | implBlock generics trait self members ih =>
    exact (hL.enter_owner (fun scope => Context.selfPath { scope } self) hc).bind fun _ _ hinner =>
      (hL.declareImpl (trait.map Path.names) hinner).bind fun _ _ _ => ih (hL.under generics hinner)
  | traitDef name generics members ih =>
    exact (hL.enter_owner (fun scope => scope.home ++ [name]) hc).bind fun _ _ hinner =>
      ih (hL.under generics hinner)
  | module name pos items inside ih =>
    exact (hL.enter_module name items hc).bind fun _ _ hinner => (ih hinner).bind fun _ _ hb =>
      .pure (.cons (hL.module pos hb) .nil)

/-- **Drafting keeps a likeness** that every single action keeps. -/
theorem items (hL : L.Kept) {c c' : Context} (hc : L.ctx c c') (items : List Item) :
    L.Drafts (Item.draftAll c items) (Item.draftAll c' items) := by
  have hdraft (ctx : Context) : Item.draftAll ctx items = (Item.passAll items).draft ctx :=
    (Item.passAll_accounts items).draft ctx
  rw [hdraft, hdraft]
  exact hL.pass _ hc

end Kept

end Likeness

end Calligraph
