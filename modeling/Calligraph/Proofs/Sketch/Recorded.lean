import Calligraph.Proofs.Sketch.Pass

/-!
# What drafting records

Drafting records the types, the impl blocks and the routines of the items of a file, at any depth,
and nothing else (`Sketch.found_ofItems`).
-/

namespace Calligraph

theorem Draft.toDeclarations_bind (d : Draft) (place : Place) (hint : TypeHint) (pat : Pat) :
    ((Drafting.bind place hint pat).run d).2.toDeclarations = d.toDeclarations := by
  obtain ⟨decls, locals⟩ := d
  cases locals <;> rfl

namespace Declarations

variable (d : Declarations)

theorem found_push_type (path : List String) :
    found { d with types := d.types.push path } = d.found ++ { types := [path] } :=
  Found.ext Array.toList_push (List.append_nil _).symm (List.append_nil _).symm

theorem found_push_impl (decl : ImplDecl) :
    found { d with impls := d.impls.push decl } = d.found ++ { impls := [decl.head] } := by
  refine Found.ext (List.append_nil _).symm ?_ (List.append_nil _).symm
  show (d.impls.push decl).toList.map ImplDecl.head = _
  rw [Array.toList_push, List.map_append]
  rfl

theorem found_push_routine (decl : RoutineDecl) :
    found { d with routines := d.routines.push decl } = d.found ++ { names := [.ofDecl decl] } := by
  refine Found.ext (List.append_nil _).symm (List.append_nil _).symm ?_
  show (d.routines.push decl).toList.map RoutineName.ofDecl = _
  rw [Array.toList_push, List.map_append]
  rfl

end Declarations

theorem Note.found_draft (note : Note) (ctx : Context) (d : Draft) :
    ((note.draft ctx).run d).2.found = d.found ++ note.found ctx.scope := by
  cases note with
  | bind pat value =>
    have hkept (hint : TypeHint) :
        ((Drafting.bind ctx.place hint pat).run d).2.found = d.found ++ {} := by
      rw [d.toDeclarations_bind, Found.append_empty]
    cases value with
    | none => exact hkept .unknown
    | some e => exact hkept _
  | type name => exact d.found_push_type _

/-- Drafting records what the pass declares. -/
theorem Pass.found_draft (p : Pass) (ctx : Context) (d : Draft) :
    ((p.draft ctx).run d).2.found = d.found ++ p.found ctx.scope := by
  induction p generalizing ctx d with
  | nothing => exact (Found.append_empty _).symm
  | append first rest ih ih' =>
    rw [Pass.found, ← Found.append_assoc, ← ih ctx d]
    exact ih' ctx _
  | before note rest ih =>
    rw [Pass.found, ← Found.append_assoc, ← note.found_draft ctx d]
    exact ih ctx _
  | after first note ih =>
    rw [Pass.found, ← Found.append_assoc, ← ih ctx d]
    exact note.found_draft ctx _
  -- blocks and bodies change the names that are bound, which are not recorded
  | block inner ih => exact ih ctx _
  | call pos func below ih => exact ih ctx d
  | method pos receiver name below ih => exact ih ctx d
  | routine owner sig body ih =>
    rw [Pass.found, ← Found.append_assoc]
    exact (ih (ctx.under sig.generics) _).trans
      (congrArg (· ++ body.found ctx.scope) (d.found_push_routine _))
  | required sig => exact d.found_push_routine _
  | implBlock generics trait self members ih =>
    rw [Pass.found, ← Found.append_assoc]
    exact (ih _ _).trans (congrArg (· ++ members.found _) (Declarations.found_push_impl _ _))
  | traitDef name generics members ih => exact ih _ _
  | module name pos items inside ih => exact ih _ _

/-- From a draft where nothing is recorded yet, drafting records what the items declare. -/
theorem Pass.AccountsFor.found_draft {p : Pass} {r : Reading} (h : p.AccountsFor r) (ctx : Context)
    {d : Draft} (hd : d.found = {}) :
    ((r.draft ctx).run d).2.found.Lists (r.own ctx.scope) (r.within ctx.scope) := by
  rw [h.draft, p.found_draft, hd]
  exact h.found ctx.scope

/-- **A sketch has the types, the impl blocks and the routines of the items in its file.** -/
theorem Sketch.found_ofItems (home : List String) (items : List Item) :
    (Sketch.ofItems home items).found.Lists [] (Item.inFile home items) :=
  (Item.passAll_accounts items).found_draft { scope := Scope.ofModule home items }
    (d := { scopes := #[Scope.ofModule home items] }) rfl

end Calligraph
