import Calligraph.Proofs.Sketch.Footprint
import Calligraph.Proofs.Sketch.Items
import Calligraph.Proofs.Sketch.Survey

/-!
# What sketching is made of

Each form of syntax is gone through in its own way, but all ways are made of the same few things:
parts one after the other, blocks, calls, routines, scopes, and notes in between. A `Pass` is such a
way. `Expr.pass` and its companions give the way through each form, and nothing else has to tell the
forms apart: `Pass.AccountsFor` says that the pass accounts for all that is made of the syntax by
recursion (`Item.passAll_accounts` and its companions), and every other result about sketching is an
induction over passes.
-/

namespace Calligraph

/-! ## Passes -/

/-- What a routine is declared under: the module around it or, for a member, the type. -/
inductive Owner where
  | module
  | type

def Scope.owner (scope : Scope) : Owner → List String
  | .module => scope.home
  | .type => scope.selfType.getD scope.home

/-- Something noted on the way that adds no node. -/
inductive Note where
  /-- The names of a pattern are bound, to a value if there is one. -/
  | bind (pat : Pat) (value : Option Expr)
  | type (name : String)

/-- A way through a piece of syntax. -/
inductive Pass where
  | nothing
  | append (first rest : Pass)
  | before (note : Note) (rest : Pass)
  | after (first : Pass) (note : Note)
  | block (inner : Pass)
  | call (pos : Position) (func : Expr) (below : Pass)
  | method (pos : Position) (receiver : Expr) (name : String) (below : Pass)
  | routine (owner : Owner) (sig : Signature) (body : Pass)
  /-- A routine without a body. -/
  | required (sig : Signature)
  | implBlock (generics : Generics) (trait : Option Path) (self : Ty) (members : Pass)
  | traitDef (name : String) (generics : Generics) (members : Pass)
  | module (name : String) (pos : Position) (items : List Item) (inner : Pass)

/-- The names of patterns are bound before a pass. -/
def Pass.binding (pats : List Pat) (rest : Pass) : Pass :=
  pats.foldr (fun pat p => .before (.bind pat none) p) rest

mutual

/-- The way through an expression. -/
def Expr.pass : Expr → Pass
  | .path _ held => Expr.passAll held
  | .call pos attrs func args =>
    .call pos func (.append (.append (Expr.passAll attrs) func.pass) (Expr.passAll args))
  | .method pos attrs receiver name args =>
    .method pos receiver name
      (.append (.append (Expr.passAll attrs) receiver.pass) (Expr.passAll args))
  | .construct _ parts => Expr.passAll parts
  | .paren inner => inner.pass
  | .borrow inner => inner.pass
  | .cast inner _ held => .append inner.pass (Expr.passAll held)
  | .binary left right => .append left.pass right.pass
  | .compound parts => Expr.passAll parts
  | .silent => .nothing
  | .block body => .block (Stmt.passAll body)
  | .letIn pat inner => .after inner.pass (.bind pat none)
  | .branch cond body otherwise =>
    .append (.block (.append cond.pass (.block (Stmt.passAll body)))) (Expr.passOption otherwise)
  | .whileLoop cond body => .block (.append cond.pass (.block (Stmt.passAll body)))
  | .forLoop pat subject body =>
    .append subject.pass (.block (.before (.bind pat none) (.block (Stmt.passAll body))))
  | .select subject arms => .append subject.pass (Arm.passAll arms)
  | .closure params body => .block (.binding params body.pass)
  | .attributed attrs inner => .append (Expr.passAll attrs) inner.pass

def Expr.passAll : List Expr → Pass
  | [] => .nothing
  | e :: rest => .append e.pass (Expr.passAll rest)

def Expr.passOption : Option Expr → Pass
  | none => .nothing
  | some e => e.pass

def Arm.passAll : List Arm → Pass
  | [] => .nothing
  | .mk pat before body :: rest =>
    .append (.block (.before (.bind pat none) (.append (Expr.passAll before) body.pass)))
      (Arm.passAll rest)

def Stmt.pass : Stmt → Pass
  | .bind pat init otherwise =>
    .after (.append (Expr.passOption init) (Expr.passOption otherwise)) (.bind pat init)
  | .item item => item.pass
  | .expr e => e.pass

def Stmt.passAll : List Stmt → Pass
  | [] => .nothing
  | s :: rest => .append s.pass (Stmt.passAll rest)

def Member.passAll : List Member → Pass
  | [] => .nothing
  | .function sig body :: rest => .append (Stmt.passBody sig body) (Member.passAll rest)
  | .constant value :: rest => .append value.pass (Member.passAll rest)

def Stmt.passBody (sig : Signature) : Option (List Stmt) → Pass
  | none => .required sig
  | some stmts => .routine .type sig (Stmt.passAll stmts)

def Item.pass : Item → Pass
  | .function sig stmts => .routine .module sig (Stmt.passAll stmts)
  | .implBlock generics trait self members =>
    .implBlock generics trait self (Member.passAll members)
  | .traitDef name generics members =>
    .before (.type name) (.traitDef name generics (Member.passAll members))
  | .module name pos items => .module name pos items (Item.passAll items)
  | .record name => .before (.type name) .nothing
  | .enumeration name parts => .before (.type name) (Expr.passAll parts)
  | .uses _ attrs => Expr.passAll attrs
  | .other parts => Expr.passAll parts

def Item.passAll : List Item → Pass
  | [] => .nothing
  | i :: rest => .append i.pass (Item.passAll rest)

end

/-! ## What is made of a pass -/

namespace Note

def draft (ctx : Context) : Note → Drafting Unit
  | .bind pat none => Drafting.bind ctx.place .unknown pat
  | .bind pat (some e) => do Drafting.bind ctx.place (e.hint ctx.place (← get).locals) pat
  | .type name => Drafting.declareType (ctx.scope.home ++ [name])

def footprint : Note → Footprint
  | .bind pat value => .looking ((value.map Expr.asked).getD []) ++ .binding pat.names
  | .type _ => .none

def found (scope : Scope) : Note → Found
  | .bind _ _ => {}
  | .type name => { types := [scope.home ++ [name]] }

end Note

namespace Pass

/-- The nodes of a pass. -/
def draft (ctx : Context) : Pass → Drafting (List (Branch Mark))
  | .nothing => return []
  | .append first rest => do
    let nodes ← first.draft ctx
    return nodes ++ (← rest.draft ctx)
  | .before note rest => do
    note.draft ctx
    rest.draft ctx
  | .after first note => do
    let nodes ← first.draft ctx
    note.draft ctx
    return nodes
  | .block inner => Drafting.block (inner.draft ctx)
  | .call pos func below => do
    let target := func.target ctx.place (← get).locals
    return callNode pos target (← below.draft ctx)
  | .method pos receiver name below => do
    let target := .method (receiver.hint ctx.place (← get).locals) name
    return callNode pos target (← below.draft ctx)
  | .routine owner sig body => do
    let inner := ctx.under sig.generics
    let index ← Drafting.declareRoutine inner.place (ctx.scope.owner owner ++ [sig.name]) sig
    let below ← Drafting.body (sig.frame inner.place) (Drafting.block (body.draft inner))
    return [.mk .declaration sig.pos (.declaration index) below]
  | .required sig => do
    let _ ← Drafting.declareRoutine (ctx.under sig.generics).place
      (ctx.scope.owner .type ++ [sig.name]) sig
    return []
  | .implBlock generics trait self members => do
    let inner ← Drafting.enter ctx { ctx.scope with selfType := some (ctx.selfPath self) }
    Drafting.declareImpl
      { selfType := inner.scope.owner .type, trait := trait.map Path.names,
        scope := inner.place.scope }
    members.draft (inner.under generics)
  | .traitDef name generics members => do
    let inner ← Drafting.enter ctx
      { ctx.scope with selfType := some (ctx.scope.home ++ [name]) }
    members.draft (inner.under generics)
  | .module name pos items inside => do
    let inner ← Drafting.enter ctx (Scope.ofModule (ctx.scope.home ++ [name]) items)
    let below ← inside.draft inner
    return [.mk .other pos .module below]

/-- What a survey makes of a pass. -/
def survey {M : Type} (v : Survey M) : Pass → M
  | .nothing => v.nothing
  | .append first rest => v.append (first.survey v) (rest.survey v)
  | .before _ rest => rest.survey v
  | .after first _ => first.survey v
  | .block inner => inner.survey v
  | .call pos _ below => v.call pos (below.survey v)
  | .method pos _ name below => v.method pos name (below.survey v)
  | .routine _ sig body => v.routine sig (body.survey v)
  | .required sig => v.required sig
  | .implBlock _ _ _ members => members.survey v
  | .traitDef _ _ members => members.survey v
  | .module _ pos _ inside => v.module pos (inside.survey v)

/-- The names that a pass looks up and binds. -/
def footprint : Pass → Footprint
  | .nothing => .none
  | .append first rest => first.footprint ++ rest.footprint
  | .before note rest => note.footprint ++ rest.footprint
  | .after first note => first.footprint ++ note.footprint
  | .block inner => inner.footprint.inside
  | .call _ func below => .looking func.called ++ below.footprint
  | .method _ receiver _ below => .looking receiver.asked ++ below.footprint
  | .routine _ _ _ => .none
  | .required _ => .none
  | .implBlock _ _ _ members => members.footprint
  | .traitDef _ _ members => members.footprint
  | .module _ _ _ inside => inside.footprint

/-- What a pass declares. -/
def found (scope : Scope) : Pass → Found
  | .nothing => {}
  | .append first rest => first.found scope ++ rest.found scope
  | .before note rest => note.found scope ++ rest.found scope
  | .after first note => first.found scope ++ note.found scope
  | .block inner => inner.found scope
  | .call _ _ below => below.found scope
  | .method _ _ _ below => below.found scope
  | .routine owner sig body =>
    ({ names := [.under (scope.owner owner) sig] } : Found) ++ body.found scope
  | .required sig => { names := [.under (scope.owner .type) sig] }
  | .implBlock _ trait self members =>
    let owner := Context.selfPath { scope } self
    ({ impls := [(owner, trait.map Path.names)] } : Found) ++
      members.found { scope with selfType := some owner }
  | .traitDef name _ members => members.found { scope with selfType := some (scope.home ++ [name]) }
  | .module name _ items inside => inside.found (Scope.ofModule (scope.home ++ [name]) items)

end Pass

/-! ## What is made of syntax -/

/-- What is made of a piece of syntax by recursion over it. -/
structure Reading where
  draft : Context → Drafting (List (Branch Mark))
  survey (M : Type) : Survey M → M
  footprint : Footprint
  within : Scope → List (Scope × Item)
  /-- The routines that it declares for the item around it. -/
  own : Scope → List RoutineName := fun _ => []

/-- All that is made of a piece of syntax can be made of the pass. -/
structure Pass.AccountsFor (p : Pass) (r : Reading) : Prop where
  draft (ctx : Context) : r.draft ctx = p.draft ctx
  survey {M : Type} (v : Survey M) : r.survey M v = p.survey v
  footprint : r.footprint = p.footprint
  found (scope : Scope) : (p.found scope).Lists (r.own scope) (r.within scope)

def Expr.reading (e : Expr) : Reading :=
  ⟨fun ctx => e.draft ctx, fun _ v => e.survey v, e.footprint, fun scope => e.within scope,
    fun _ => []⟩

def Expr.readingAll (es : List Expr) : Reading :=
  ⟨fun ctx => Expr.draftAll ctx es, fun _ v => Expr.surveyAll v es, Expr.footprintAll es,
    fun scope => Expr.withinAll scope es, fun _ => []⟩

def Expr.readingOption (e : Option Expr) : Reading :=
  ⟨fun ctx => Expr.draftOption ctx e, fun _ v => Expr.surveyOption v e, Expr.footprintOption e,
    fun scope => Expr.withinOption scope e, fun _ => []⟩

def Arm.readingAll (arms : List Arm) : Reading :=
  ⟨fun ctx => Arm.draftAll ctx arms, fun _ v => Arm.surveyAll v arms, Arm.footprintAll arms,
    fun scope => Arm.withinAll scope arms, fun _ => []⟩

def Stmt.reading (s : Stmt) : Reading :=
  ⟨fun ctx => s.draft ctx, fun _ v => s.survey v, s.footprint, fun scope => s.within scope,
    fun _ => []⟩

def Stmt.readingAll (ss : List Stmt) : Reading :=
  ⟨fun ctx => Stmt.draftAll ctx ss, fun _ v => Stmt.surveyAll v ss, Stmt.footprintAll ss,
    fun scope => Stmt.withinAll scope ss, fun _ => []⟩

/-- Members are read in the scope of the type they belong to. -/
def Member.readingAll (ms : List Member) : Reading :=
  ⟨fun ctx => Member.draftAll ctx (ctx.scope.owner .type) ms, fun _ v => Member.surveyAll v ms,
    Member.footprintAll ms, fun scope => Member.withinAll scope ms,
    fun scope => (Member.signatures ms).map (.under (scope.owner .type))⟩

def Item.reading (i : Item) : Reading :=
  ⟨fun ctx => i.draft ctx, fun _ v => i.survey v, i.footprint, fun scope => i.within scope,
    fun _ => []⟩

def Item.readingAll (is : List Item) : Reading :=
  ⟨fun ctx => Item.draftAll ctx is, fun _ v => Item.surveyAll v is, Item.footprintAll is,
    fun scope => Item.withinAll scope is, fun _ => []⟩

namespace Pass.AccountsFor

variable {p q : Pass} {r r' : Reading}

theorem nothing : Pass.nothing.AccountsFor
    ⟨fun _ => pure [], fun _ v => v.nothing, .none, fun _ => [], fun _ => []⟩ :=
  ⟨fun _ => rfl, fun _ => rfl, rfl, fun _ => .nothing⟩

theorem append (h : p.AccountsFor r) (h' : q.AccountsFor r') : (p.append q).AccountsFor
    ⟨fun ctx => do let first ← r.draft ctx; return first ++ (← r'.draft ctx),
      fun M v => v.append (r.survey M v) (r'.survey M v), r.footprint ++ r'.footprint,
      fun scope => r.within scope ++ r'.within scope,
      fun scope => r.own scope ++ r'.own scope⟩ where
  draft ctx := by
    simp only [h.draft, h'.draft]
    rfl
  survey v := by
    simp only [h.survey, h'.survey]
    rfl
  footprint := by
    simp only [h.footprint, h'.footprint]
    rfl
  found scope := (h.found scope).append (h'.found scope)

/-- The same in other words. -/
theorem congr (h : p.AccountsFor r) {draft : Context → Drafting (List (Branch Mark))}
    {footprint : Footprint} (hdraft : ∀ ctx, draft ctx = r.draft ctx)
    (hfootprint : footprint = r.footprint) : p.AccountsFor { r with draft, footprint } :=
  { h with
    draft := fun ctx => (hdraft ctx).trans (h.draft ctx)
    footprint := hfootprint.trans h.footprint }

theorem block (h : p.AccountsFor r) : p.block.AccountsFor
    { r with
      draft := fun ctx => Drafting.block (r.draft ctx)
      footprint := r.footprint.inside } :=
  { h with
    draft := fun ctx => congrArg Drafting.block (h.draft ctx)
    footprint := congrArg Footprint.inside h.footprint }

theorem bindBefore (h : p.AccountsFor r) (pat : Pat) :
    (Pass.before (.bind pat none) p).AccountsFor
      { r with
        draft := fun ctx => do Drafting.bind ctx.place .unknown pat; r.draft ctx
        footprint := .binding pat.names ++ r.footprint } :=
  { h with
    draft := fun ctx => by
      simp only [h.draft]
      rfl
    footprint := congrArg (Footprint.binding pat.names ++ ·) h.footprint }

theorem bindAllBefore (h : p.AccountsFor r) (pats : List Pat) : (binding pats p).AccountsFor
    { r with
      draft := fun ctx => do pats.forM (Drafting.bind ctx.place .unknown); r.draft ctx
      footprint := .binding (Pat.namesAll pats) ++ r.footprint } := by
  induction pats with
  | nil => exact h.congr (fun _ => rfl) (Footprint.none_append _)
  | cons pat rest ih =>
    exact (ih.bindBefore pat).congr (fun _ => rfl)
      (Footprint.append_assoc (.binding pat.names) (.binding (Pat.namesAll rest)) r.footprint)

/-- The names are bound behind the value, whose type is asked for then. -/
theorem bindAfter (h : p.AccountsFor r) (pat : Pat) (value : Option Expr) :
    (p.after (.bind pat value)).AccountsFor
      { r with
        draft := fun ctx => do
          let nodes ← r.draft ctx
          Note.draft ctx (.bind pat value)
          return nodes
        footprint := r.footprint ++ Note.footprint (.bind pat value) } :=
  { h with
    draft := fun ctx => by
      simp only [h.draft]
      rfl
    footprint := congrArg (· ++ Note.footprint (.bind pat value)) h.footprint
    found := fun scope => by
      have hfound : (p.after (.bind pat value)).found scope = p.found scope := Found.append_empty _
      rw [hfound]
      exact h.found scope }

theorem call (h : p.AccountsFor r) (pos : Position) (func : Expr) :
    (Pass.call pos func p).AccountsFor
      { r with
        draft := fun ctx => do
          let target := func.target ctx.place (← get).locals
          return callNode pos target (← r.draft ctx)
        survey := fun M v => v.call pos (r.survey M v)
        footprint := .looking func.called ++ r.footprint } :=
  { h with
    draft := fun ctx => by
      simp only [h.draft]
      rfl
    survey := fun v => congrArg (v.call pos) (h.survey v)
    footprint := congrArg (Footprint.looking func.called ++ ·) h.footprint }

theorem method (h : p.AccountsFor r) (pos : Position) (receiver : Expr) (name : String) :
    (Pass.method pos receiver name p).AccountsFor
      { r with
        draft := fun ctx => do
          let target := .method (receiver.hint ctx.place (← get).locals) name
          return callNode pos target (← r.draft ctx)
        survey := fun M v => v.method pos name (r.survey M v)
        footprint := .looking receiver.asked ++ r.footprint } :=
  { h with
    draft := fun ctx => by
      simp only [h.draft]
      rfl
    survey := fun v => congrArg (v.method pos name) (h.survey v)
    footprint := congrArg (Footprint.looking receiver.asked ++ ·) h.footprint }

theorem routine (h : p.AccountsFor r) (owner : Owner) (sig : Signature) :
    (Pass.routine owner sig p).AccountsFor
      { draft := fun ctx => do
          let inner := ctx.under sig.generics
          let index ← Drafting.declareRoutine inner.place (ctx.scope.owner owner ++ [sig.name]) sig
          let below ← Drafting.body (sig.frame inner.place) (Drafting.block (r.draft inner))
          return [.mk .declaration sig.pos (.declaration index) below]
        survey := fun M v => v.routine sig (r.survey M v)
        footprint := .none
        within := r.within
        own := fun scope => .under (scope.owner owner) sig :: r.own scope } where
  draft ctx := by
    simp only [h.draft]
    rfl
  survey v := congrArg (v.routine sig) (h.survey v)
  footprint := rfl
  found scope := (h.found scope).routine _

theorem required (sig : Signature) : (Pass.required sig).AccountsFor
    { draft := fun ctx => do
        let _ ← Drafting.declareRoutine (ctx.under sig.generics).place
          (ctx.scope.owner .type ++ [sig.name]) sig
        return []
      survey := fun _ v => v.required sig
      footprint := .none
      within := fun _ => []
      own := fun scope => [.under (scope.owner .type) sig] } where
  draft _ := rfl
  survey _ := rfl
  footprint := rfl
  found _ := Found.Lists.nothing.routine _

theorem traitDef (h : p.AccountsFor r) (name : String) (generics : Generics) :
    (Pass.traitDef name generics p).AccountsFor
      { r with
        draft := fun ctx => do
          let inner ← Drafting.enter ctx
            { ctx.scope with selfType := some (ctx.scope.home ++ [name]) }
          r.draft (inner.under generics)
        within := fun scope => r.within { scope with selfType := some (scope.home ++ [name]) }
        own := fun scope => r.own { scope with selfType := some (scope.home ++ [name]) } } :=
  { h with
    draft := fun ctx => by
      simp only [h.draft]
      rfl
    found := fun _ => h.found _ }

theorem module (h : p.AccountsFor r) (name : String) (pos : Position) (items : List Item) :
    (Pass.module name pos items p).AccountsFor
      { r with
        draft := fun ctx => do
          let inner ← Drafting.enter ctx (Scope.ofModule (ctx.scope.home ++ [name]) items)
          let below ← r.draft inner
          return [.mk .other pos .module below]
        survey := fun M v => v.module pos (r.survey M v)
        within := fun scope => r.within (Scope.ofModule (scope.home ++ [name]) items)
        own := fun scope => r.own (Scope.ofModule (scope.home ++ [name]) items) } :=
  { h with
    draft := fun ctx => by
      simp only [h.draft]
      rfl
    survey := fun v => congrArg (v.module pos) (h.survey v)
    found := fun _ => h.found _ }

/-- An impl block. -/
theorem implementing (h : p.AccountsFor r) (generics : Generics) (trait : Option Path) (self : Ty)
    (ms : List Member)
    (hown : ∀ scope : Scope,
      r.own { scope with selfType := some (Context.selfPath { scope } self) } =
        (Item.implBlock generics trait self ms).names scope) :
    (Pass.implBlock generics trait self p).AccountsFor
      { r with
        draft := fun ctx => do
          let inner ← Drafting.enter ctx { ctx.scope with selfType := some (ctx.selfPath self) }
          Drafting.declareImpl
            { selfType := ctx.selfPath self, trait := trait.map Path.names,
              scope := inner.place.scope }
          r.draft (inner.under generics)
        within := fun scope => (scope, .implBlock generics trait self ms) ::
          r.within { scope with selfType := some (Context.selfPath { scope } self) }
        own := fun _ => [] } :=
  { h with
    draft := fun ctx => by
      simp only [h.draft]
      rfl
    found := fun scope => (hown scope ▸ h.found _).item (i := .implBlock generics trait self ms) }

/-- An item that declares neither a type nor an impl block. -/
theorem plain (h : p.AccountsFor r) (i : Item) (hown : ∀ scope, r.own scope = i.names scope)
    (htype : ∀ scope, i.type? scope = none) (himpl : ∀ scope, i.impl? scope = none) :
    p.AccountsFor
      { r with within := fun scope => (scope, i) :: r.within scope, own := fun _ => [] } :=
  { h with
    found := fun scope => by
      have hitem := (hown scope ▸ h.found scope).item
      rw [htype, himpl] at hitem
      exact hitem }

/-- An item that declares a type. -/
theorem typed (h : p.AccountsFor r) (name : String) (i : Item)
    (hown : ∀ scope, r.own scope = i.names scope)
    (htype : ∀ scope, i.type? scope = some (scope.home ++ [name]))
    (himpl : ∀ scope, i.impl? scope = none) :
    (Pass.before (.type name) p).AccountsFor
      { r with
        draft := fun ctx => do
          Drafting.declareType (ctx.scope.home ++ [name])
          r.draft ctx
        within := fun scope => (scope, i) :: r.within scope
        own := fun _ => [] } :=
  { h with
    draft := fun ctx => by
      simp only [h.draft]
      rfl
    footprint := h.footprint.trans (Footprint.none_append _).symm
    found := fun scope => by
      have hitem := (hown scope ▸ h.found scope).item
      rw [htype, himpl] at hitem
      exact hitem }

end Pass.AccountsFor

open Pass (AccountsFor)

mutual

theorem Expr.pass_accounts : (e : Expr) → e.pass.AccountsFor e.reading
  | .path _ held => Expr.passAll_accounts held
  | .call pos attrs func args =>
    (((Expr.passAll_accounts attrs).append (Expr.pass_accounts func)).append
      (Expr.passAll_accounts args)).call pos func |>.congr (fun _ => rfl) rfl
  | .method pos attrs receiver name args =>
    (((Expr.passAll_accounts attrs).append (Expr.pass_accounts receiver)).append
      (Expr.passAll_accounts args)).method pos receiver name |>.congr (fun _ => rfl) rfl
  | .construct _ parts => Expr.passAll_accounts parts
  | .paren inner => Expr.pass_accounts inner
  | .borrow inner => Expr.pass_accounts inner
  | .cast inner _ held => (Expr.pass_accounts inner).append (Expr.passAll_accounts held)
  | .binary left right => (Expr.pass_accounts left).append (Expr.pass_accounts right)
  | .compound parts => Expr.passAll_accounts parts
  | .silent => .nothing
  | .block body => (Stmt.passAll_accounts body).block
  | .letIn pat inner => (Expr.pass_accounts inner).bindAfter pat none
  | .branch cond body otherwise =>
    ((Expr.pass_accounts cond).append (Stmt.passAll_accounts body).block).block.append
      (Expr.passOption_accounts otherwise)
  | .whileLoop cond body =>
    ((Expr.pass_accounts cond).append (Stmt.passAll_accounts body).block).block
  | .forLoop pat subject body =>
    (Expr.pass_accounts subject).append ((Stmt.passAll_accounts body).block.bindBefore pat).block
  | .select subject arms => (Expr.pass_accounts subject).append (Arm.passAll_accounts arms)
  | .closure params body => ((Expr.pass_accounts body).bindAllBefore params).block
  | .attributed attrs inner => (Expr.passAll_accounts attrs).append (Expr.pass_accounts inner)

theorem Expr.passAll_accounts :
    (es : List Expr) → (Expr.passAll es).AccountsFor (Expr.readingAll es)
  | [] => .nothing
  | e :: rest => (Expr.pass_accounts e).append (Expr.passAll_accounts rest)

theorem Expr.passOption_accounts :
    (e : Option Expr) → (Expr.passOption e).AccountsFor (Expr.readingOption e)
  | none => .nothing
  | some e => Expr.pass_accounts e

theorem Arm.passAll_accounts :
    (arms : List Arm) → (Arm.passAll arms).AccountsFor (Arm.readingAll arms)
  | [] => .nothing
  | .mk pat before body :: rest =>
    (((Expr.passAll_accounts before).append (Expr.pass_accounts body)).bindBefore pat).block.append
      (Arm.passAll_accounts rest)

theorem Stmt.pass_accounts : (s : Stmt) → s.pass.AccountsFor s.reading
  | .bind pat init otherwise => by
    have hvalues := (Expr.passOption_accounts init).append (Expr.passOption_accounts otherwise)
    cases init with
    | none => exact (hvalues.bindAfter pat none).congr (fun _ => rfl) rfl
    | some e => exact (hvalues.bindAfter pat (some e)).congr (fun _ => rfl) rfl
  | .item item => Item.pass_accounts item
  | .expr e => Expr.pass_accounts e

theorem Stmt.passAll_accounts :
    (ss : List Stmt) → (Stmt.passAll ss).AccountsFor (Stmt.readingAll ss)
  | [] => .nothing
  | s :: rest => (Stmt.pass_accounts s).append (Stmt.passAll_accounts rest)

theorem Member.passAll_accounts :
    (ms : List Member) → (Member.passAll ms).AccountsFor (Member.readingAll ms)
  | [] => .nothing
  | .function sig none :: rest =>
    ((AccountsFor.required sig).append (Member.passAll_accounts rest)).congr (fun _ => rfl)
      (Footprint.none_append _).symm
  | .function sig (some stmts) :: rest =>
    (((Stmt.passAll_accounts stmts).routine .type sig).append
      (Member.passAll_accounts rest)).congr (fun _ => rfl) (Footprint.none_append _).symm
  | .constant value :: rest => (Expr.pass_accounts value).append (Member.passAll_accounts rest)

theorem Item.pass_accounts : (i : Item) → i.pass.AccountsFor i.reading
  | .function sig stmts =>
    ((Stmt.passAll_accounts stmts).routine .module sig).plain (.function sig stmts)
      (fun _ => rfl) (fun _ => rfl) fun _ => rfl
  | .implBlock generics trait self ms =>
    ((Member.passAll_accounts ms).implementing generics trait self ms fun _ => rfl).congr
      (fun _ => rfl) rfl
  | .traitDef name generics ms =>
    ((Member.passAll_accounts ms).traitDef name generics).typed name (.traitDef name generics ms)
      (fun _ => rfl) (fun _ => rfl) (fun _ => rfl) |>.congr (fun _ => rfl) rfl
  | .module name pos is =>
    ((Item.passAll_accounts is).module name pos is).plain (.module name pos is) (fun _ => rfl)
      (fun _ => rfl) fun _ => rfl
  | .record name => AccountsFor.nothing.typed name (.record name) (fun _ => rfl) (fun _ => rfl)
      fun _ => rfl
  | .enumeration name parts => (Expr.passAll_accounts parts).typed name (.enumeration name parts)
      (fun _ => rfl) (fun _ => rfl) fun _ => rfl
  | .uses tree attrs => (Expr.passAll_accounts attrs).plain (.uses tree attrs) (fun _ => rfl)
      (fun _ => rfl) fun _ => rfl
  | .other parts => (Expr.passAll_accounts parts).plain (.other parts) (fun _ => rfl)
      (fun _ => rfl) fun _ => rfl

/-- **A pass accounts for all that is made of the items of a file.** -/
theorem Item.passAll_accounts :
    (is : List Item) → (Item.passAll is).AccountsFor (Item.readingAll is)
  | [] => .nothing
  | i :: rest => (Item.pass_accounts i).append (Item.passAll_accounts rest)

end

end Calligraph
