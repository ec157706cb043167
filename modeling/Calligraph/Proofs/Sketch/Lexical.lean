import Calligraph.Proofs.Sketch.Desk

/-!
# Lexical scoping

What is bound inside of a piece of syntax is seen up to the end of the innermost block around it. On
a desk this means that a visit leaves all that is open as it was, but for the names that the piece
of syntax binds in the block around itself.
-/

namespace Calligraph

/-- A piece of syntax that can be visited. -/
inductive Part where
  | expr (e : Expr)
  | stmt (s : Stmt)
  | item (i : Item)

namespace Part

def pass : Part → Pass
  | .expr e => e.pass
  | .stmt s => s.pass
  | .item i => i.pass

def visit (p : Part) : Desk → Desk :=
  p.pass.visit

def footprint : Part → Footprint
  | .expr e => e.footprint
  | .stmt s => s.footprint
  | .item i => i.footprint

def draft (ctx : Context) : Part → Drafting (List (Branch Mark))
  | .expr e => e.draft ctx
  | .stmt s => s.draft ctx
  | .item i => i.draft ctx

theorem visit_follows (p : Part) :
    Desk.Follows p.footprint.bound p.visit fun ctx => p.draft ctx := by
  cases p with
  | expr e => exact e.pass_accounts.visit_follows
  | stmt s => exact s.pass_accounts.visit_follows
  | item i => exact i.pass_accounts.visit_follows

theorem draft_uses (p : Part) (ctx : Context) : Drafting.Uses p.footprint (p.draft ctx) := by
  cases p with
  | expr e => exact e.pass_accounts.draft_uses ctx
  | stmt s => exact s.pass_accounts.draft_uses ctx
  | item i => exact i.pass_accounts.draft_uses ctx

end Part

namespace Frame

theorem length_extend (new : Frame) (frames : List Frame) :
    (extend new frames).length = frames.length := by
  cases frames <;> rfl

theorem tail_extend (new : Frame) (frames : List Frame) :
    (extend new frames).tail = frames.tail := by
  cases frames <;> rfl

/-- Names that are not among the new ones stand for what they stood for. -/
theorem find?_extend_of_notMem {new : Frame} {n : String} (h : n ∉ new.map Prod.fst)
    (frames : List Frame) : find? (extend new frames) n = find? frames n := by
  cases frames with
  | nil => rfl
  | cons frame outer =>
    rw [find?_extend (List.cons_ne_nil _ _), lookup_eq_none.2 h]
    rfl

end Frame

namespace Desk

/-- The names that are not bound stand for what they stood for. -/
theorem Keeps.find?_eq {bound : List String} {s t : Desk} (h : Keeps bound s t) {n : String}
    (hn : n ∉ bound) : Frame.find? t.locals n = Frame.find? s.locals n := by
  obtain ⟨new, hnames, hlocals⟩ := h.locals
  rw [hlocals]
  exact Frame.find?_extend_of_notMem (by rwa [hnames, List.mem_reverse]) s.locals

/-- A routine does not see the names around it. -/
theorem inRoutine_locals (path : List String) (sig : Signature) (body : Option (Desk → Desk))
    (s : Desk) (locals : List Frame) :
    inRoutine path sig body { s with locals } = { s.inRoutine path sig body with locals } := by
  cases body <;> rfl

/-- The desk that the sketch of a file starts on. -/
def new (home : List String) (items : List Item) : Desk :=
  { scopes := #[Scope.ofModule home items], arena := Arena.new .root }

/-- The sketch as it lies on the desk. -/
def sketch (s : Desk) : Sketch :=
  { s.toDeclarations with arena := s.arena }

/-- **The sketch of a file is what visiting its items leaves on the desk.** -/
theorem sketch_visitAll (home : List String) (items : List Item) :
    (Item.visitAll items (new home items)).sketch = Sketch.ofItems home items := by
  have hfollows : Follows _ (Item.visitAll items) fun ctx => Item.draftAll ctx items :=
    (Item.passAll_accounts items).visit_follows
  rw [hfollows.drafts (s := new home items) Nat.zero_lt_one]
  rfl

/-- **Sketching is lexically scoped.** From any desk, a visit leaves the open nodes, scopes and type
parameters as they were, and all blocks but the innermost, where it adds the names that the piece of
syntax binds around itself. It does not affect what a call or a receiver behind it means by other
names. An `else` is visited with the names from before the condition, and a routine without regard
to the names around it. On a desk whose scope is recorded the visit does what drafting does, and
drafting too adds those names and leaves the other blocks. -/
theorem visit_restores (s : Desk) (p : Part) :
    (p.visit s).parents = s.parents ∧
    (p.visit s).openScopes = s.openScopes ∧
    (p.visit s).typeParams = s.typeParams ∧
    (p.visit s).locals.length = s.locals.length ∧
    (p.visit s).locals.tail = s.locals.tail ∧
    (∃ new : Frame, new.map Prod.fst = p.footprint.bound.reverse ∧
      (p.visit s).locals = Frame.extend new s.locals) ∧
    (∀ func : Expr, (∀ n ∈ func.called, n ∉ p.footprint.bound) → ∀ place,
      func.target place (p.visit s).locals = func.target place s.locals) ∧
    (∀ receiver : Expr, (∀ n ∈ receiver.asked, n ∉ p.footprint.bound) → ∀ place,
      receiver.hint place (p.visit s).locals = receiver.hint place s.locals) ∧
    (∀ cond body otherwise, ∃ t, t.parents = s.parents ∧ t.openScopes = s.openScopes ∧
      t.typeParams = s.typeParams ∧ t.locals = s.locals ∧
      (Expr.branch cond body (some otherwise)).visit s = otherwise.visit t) ∧
    (∀ path sig body locals,
      inRoutine path sig body { s with locals } = { s.inRoutine path sig body with locals }) ∧
    (s.scope < s.scopes.size → p.visit s = s.grow ((p.draft s.context).run s.toDraft)) ∧
    ∀ ctx d, ∃ new : Frame, new.map Prod.fst = p.footprint.bound.reverse ∧
      ((p.draft ctx).run d).2.locals = Frame.extend new d.locals := by
  have hkeeps := p.visit_follows.keeps s
  obtain ⟨new, hnames, hlocals⟩ := hkeeps.locals
  refine ⟨hkeeps.parents, hkeeps.openScopes, hkeeps.typeParams, ?_, ?_, hkeeps.locals,
    fun func hfunc place => ?_, fun receiver hreceiver place => ?_, fun cond body otherwise => ?_,
    fun path sig body => inRoutine_locals path sig body s, p.visit_follows.drafts,
    fun ctx d => ?_⟩
  · rw [hlocals, Frame.length_extend]
  · rw [hlocals, Frame.tail_extend]
  · exact func.target_congr place fun n hn => hkeeps.find?_eq (hfunc n hn)
  · exact receiver.hint_congr place fun n hn => hkeeps.find?_eq (hreceiver n hn)
  · -- an `else` comes behind the block of what decides on it
    have hdecision :=
      (Pass.block (.append cond.pass (.block (Stmt.passAll body)))).visit_follows.keeps s
    exact ⟨_, hdecision.parents, hdecision.openScopes, hdecision.typeParams, hdecision.locals_eq,
      rfl⟩
  · obtain ⟨new, hnames, hlocals, -⟩ := p.draft_uses ctx d d.locals (.refl _ _)
    exact ⟨new, hnames, hlocals⟩

/-- A desk inside of a body where no names are bound. -/
def bare : Desk :=
  { new [] [] with locals := [[]] }

/-- The name that a `while let` binds is free again behind it. -/
theorem visit_restores_whileLet :
    (Expr.path (.ofName "g") []).target {}
      ((Expr.whileLoop (.letIn (.name "g" none) (.compound [])) []).visit bare).locals =
        .path ["g"] 0 ∧
    (Expr.whileLoop (.letIn (.name "g" none) (.compound [])) []).visit bare = bare.grow
      (((Expr.whileLoop (.letIn (.name "g" none) (.compound [])) []).draft bare.context).run
        bare.toDraft) := by
  obtain ⟨-, -, -, -, -, -, htarget, -, -, -, hdrafts, -⟩ := visit_restores bare
    (.expr (.whileLoop (.letIn (.name "g" none) (.compound [])) []))
  exact ⟨htarget (.path (.ofName "g") []) (by decide) {}, hdrafts (by decide)⟩

/-- A `let` in the subject of a `for`, such as an argument of a macro, binds its name in the block
around the loop: the subject is visited before the block of the loop is opened. -/
theorem visit_forLoop_subject : ¬ ∀ (s : Desk) (pat : Pat) (subject : Expr) (body : List Stmt)
    (func : Expr), func.target s.context.place ((Expr.forLoop pat subject body).visit s).locals =
      func.target s.context.place s.locals := by
  intro h
  have htarget : CallTarget.dynamic = CallTarget.path ["g"] 0 :=
    h bare (.name "x" none) (.compound [.letIn (.name "g" none) (.compound [])]) []
      (.path (.ofName "g") [])
  cases htarget

end Desk

end Calligraph
