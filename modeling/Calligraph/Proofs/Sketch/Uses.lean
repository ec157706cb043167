import Calligraph.Proofs.Sketch.Pass

/-!
# The names that drafting uses

Drafting depends on the names around it only through those it looks up, and changes only the
innermost block, by the names it binds there (`Drafting.Uses`).
-/

namespace Calligraph

variable {α β : Type}

/-- The action depends on the names around it only through those it looks up, and adds the names it
binds to the innermost frame. -/
def Drafting.Uses (u : Footprint) (m : Drafting α) : Prop :=
  ∀ (d : Draft) (locals : List Frame), Frame.Agree u.free d.locals locals →
    ∃ new : Frame, new.map Prod.fst = u.bound.reverse ∧
      (m.run d).2.locals = Frame.extend new d.locals ∧
      m.run { d with locals } =
        ((m.run d).1, { (m.run d).2 with locals := Frame.extend new locals })

namespace Drafting.Uses

variable {u v : Footprint}

theorem seq {m : Drafting α} {k : α → Drafting β} (h : Uses u m) (hk : ∀ a, Uses v (k a)) :
    Uses (u ++ v) (m >>= k) := by
  intro d locals hagree
  obtain ⟨new, hnames, hlocals, hrun⟩ := h d locals (hagree.mono (by simp [Footprint.free_append]))
  have hrest : Frame.Agree v.free (m.run d).2.locals (Frame.extend new locals) := by
    rw [hlocals]
    exact (hagree.mono (by simp [Footprint.free_append])).extend hnames
  obtain ⟨new', hnames', hlocals', hrun'⟩ := hk (m.run d).1 (m.run d).2 _ hrest
  refine ⟨new' ++ new, ?_, ?_, ?_⟩
  · rw [List.map_append, hnames, hnames', Footprint.bound_append, List.reverse_append]
  · rw [Frame.extend_append, ← hlocals]
    exact hlocals'
  · show (k (m.run { d with locals }).1).run (m.run { d with locals }).2 = _
    rw [hrun, Frame.extend_append]
    exact hrun'

/-- An action that neither looks up nor binds names. -/
theorem plain {m : Drafting α} (h : ∀ (d : Draft) (locals : List Frame),
    (m.run d).2.locals = d.locals ∧
    m.run { d with locals } = ((m.run d).1, { (m.run d).2 with locals })) : Uses .none m := by
  intro d locals _
  refine ⟨[], rfl, ?_, ?_⟩
  · rw [Frame.extend_nil]
    exact (h d locals).1
  · rw [Frame.extend_nil]
    exact (h d locals).2

/-- Something done before that does not use names. -/
theorem behind {m : Drafting α} {k : α → Drafting β} (h : Uses .none m) (hk : ∀ a, Uses u (k a)) :
    Uses u (m >>= k) :=
  Footprint.none_append u ▸ h.seq hk

theorem pure (a : α) : Uses .none (Pure.pure a : Drafting α) :=
  plain fun _ _ => ⟨rfl, rfl⟩

theorem map {m : Drafting α} (h : Uses u m) (f : α → β) : Uses u (do return f (← m)) := by
  simpa using h.seq fun a => pure (f a)

/-- Nodes one after the other. -/
theorem append {γ : Type} {m n : Drafting (List γ)} (h : Uses u m) (h' : Uses v n) :
    Uses (u ++ v) (do let first ← m; return first ++ (← n)) :=
  h.seq fun first => h'.map (first ++ ·)

/-- What is bound in a block is forgotten behind it. -/
theorem block {m : Drafting α} (h : Uses u m) : Uses u.inside (Drafting.block m) := by
  intro d locals hagree
  have hinner : Frame.Agree u.free ([] :: d.locals) ([] :: locals) :=
    ⟨by simp, hagree.find⟩
  obtain ⟨new, -, hlocals, hrun⟩ := h { d with locals := [] :: d.locals } _ hinner
  refine ⟨[], rfl, ?_, ?_⟩
  · show (m.run { d with locals := [] :: d.locals }).2.locals.tail = _
    rw [hlocals, Frame.extend_nil]
    rfl
  · show (let r := m.run { d with locals := [] :: locals }
      (r.1, { r.2 with locals := r.2.locals.tail })) = _
    rw [hrun, Frame.extend_nil]
    rfl

/-- A body sees its own names only. -/
theorem body (frame : Frame) (m : Drafting α) : Uses .none (Drafting.body frame m) :=
  plain fun _ _ => ⟨rfl, rfl⟩

theorem bind (place : Place) (hint : TypeHint) (pat : Pat) :
    Uses (.binding pat.names) (Drafting.bind place hint pat) := by
  intro d locals hagree
  obtain ⟨new, hnames, hbind⟩ := pat.exists_bind place hint
  have hrun (d : Draft) : (Drafting.bind place hint pat).run d =
      ((), { d with locals := Frame.extend new d.locals }) := by
    obtain ⟨decls, _ | ⟨frame, outer⟩⟩ := d
    · rfl
    · show ((), Draft.mk decls (pat.bind place hint frame :: outer)) = _
      rw [hbind]
      rfl
  exact ⟨new, hnames, by rw [hrun], by rw [hrun, hrun]⟩

/-- Something found out from the names around. -/
theorem reading {names : List String} {f : List Frame → β}
    (hf : ∀ frames frames', (∀ n ∈ names, Frame.find? frames n = Frame.find? frames' n) →
      f frames = f frames') {k : β → Drafting α} (h : ∀ b, Uses u (k b)) :
    Uses (.looking names ++ u) (do k (f (← get).locals)) := by
  have hfirst : Uses (.looking names) (do return f (← (get : Drafting Draft)).locals) := by
    intro d locals hagree
    refine ⟨[], rfl, ?_, ?_⟩
    · rw [Frame.extend_nil]
      rfl
    · rw [Frame.extend_nil]
      show (f locals, _) = (f d.locals, _)
      rw [hf _ _ hagree.find]
      rfl
  exact hfirst.seq h

theorem declareType (path : List String) : Uses .none (Drafting.declareType path) :=
  plain fun _ _ => ⟨rfl, rfl⟩

theorem declareImpl (decl : ImplDecl) : Uses .none (Drafting.declareImpl decl) :=
  plain fun _ _ => ⟨rfl, rfl⟩

theorem enter (ctx : Context) (scope : Scope) : Uses .none (Drafting.enter ctx scope) :=
  plain fun _ _ => ⟨rfl, rfl⟩

theorem declareRoutine (place : Place) (path : List String) (sig : Signature) :
    Uses .none (Drafting.declareRoutine place path sig) :=
  plain fun _ _ => ⟨rfl, rfl⟩

end Drafting.Uses

open Drafting (Uses)

theorem Note.draft_uses (note : Note) (ctx : Context) : Uses note.footprint (note.draft ctx) := by
  cases note with
  | bind pat value =>
    cases value with
    | none => exact .bind ctx.place .unknown pat
    | some e =>
      exact .reading (fun _ _ => e.hint_congr ctx.place) fun hint => .bind ctx.place hint pat
  | type name => exact .declareType _

theorem Pass.draft_uses (p : Pass) (ctx : Context) : Uses p.footprint (p.draft ctx) := by
  induction p generalizing ctx with
  | nothing => exact .pure []
  | append first rest ih ih' => exact .append (ih ctx) (ih' ctx)
  | before note rest ih => exact (note.draft_uses ctx).seq fun _ => ih ctx
  | after first note ih =>
    exact (ih ctx).seq fun nodes => (note.draft_uses ctx).map fun _ => nodes
  | block inner ih => exact .block (ih ctx)
  | call pos func below ih =>
    exact .reading (fun _ _ => func.target_congr ctx.place) fun target =>
      (ih ctx).map (callNode pos target)
  | method pos receiver name below ih =>
    exact .reading (fun _ _ => receiver.hint_congr ctx.place) fun hint =>
      (ih ctx).map (callNode pos (.method hint name))
  | routine owner sig body ih =>
    exact (Uses.declareRoutine _ _ sig).behind fun index => (Uses.body _ _).map fun below =>
      [Branch.mk .declaration sig.pos (Mark.declaration index) below]
  | required sig => exact (Uses.declareRoutine _ _ sig).map fun _ => []
  | implBlock generics trait self members ih =>
    exact (Uses.enter ctx _).behind fun inner => (Uses.declareImpl _).behind fun _ =>
      ih (inner.under generics)
  | traitDef name generics members ih =>
    exact (Uses.enter ctx _).behind fun inner => ih (inner.under generics)
  | module name pos items inside ih =>
    exact (Uses.enter ctx _).behind fun inner => (ih inner).map fun below =>
      [Branch.mk .other pos Mark.module below]

/-- **Drafting uses the names that the syntax uses.** -/
theorem Pass.AccountsFor.draft_uses {p : Pass} {r : Reading} (h : p.AccountsFor r)
    (ctx : Context) : Uses r.footprint (r.draft ctx) := by
  rw [h.draft, h.footprint]
  exact p.draft_uses ctx

end Calligraph
