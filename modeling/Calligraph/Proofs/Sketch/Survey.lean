import Calligraph.Syntax.Basic

/-!
# Surveys of syntax

A survey goes through the syntax and sees routines, modules and calls, each with what it made of the
syntax below, and nothing of the names, type parameters and scopes around them.
-/

namespace Calligraph

/-- What is made of routines, modules and calls. -/
structure Survey (M : Type) where
  nothing : M
  append : M → M → M
  call (pos : Position) (below : M) : M
  method (pos : Position) (name : String) (below : M) : M
  /-- A routine with its body. -/
  routine (sig : Signature) (below : M) : M
  /-- A routine without a body. -/
  required (sig : Signature) : M
  module (pos : Position) (below : M) : M

variable {M : Type}

mutual

/-- What a survey makes of an expression. -/
def Expr.survey (v : Survey M) : Expr → M
  | .path _ held => Expr.surveyAll v held
  | .call pos attrs func args =>
    v.call pos
      (v.append (v.append (Expr.surveyAll v attrs) (func.survey v)) (Expr.surveyAll v args))
  | .method pos attrs receiver name args =>
    v.method pos name
      (v.append (v.append (Expr.surveyAll v attrs) (receiver.survey v)) (Expr.surveyAll v args))
  | .construct _ parts => Expr.surveyAll v parts
  | .paren inner => inner.survey v
  | .borrow inner => inner.survey v
  | .cast inner _ held => v.append (inner.survey v) (Expr.surveyAll v held)
  | .binary left right => v.append (left.survey v) (right.survey v)
  | .compound parts => Expr.surveyAll v parts
  | .silent => v.nothing
  | .block body => Stmt.surveyAll v body
  | .letIn _ inner => inner.survey v
  | .branch cond body otherwise =>
    v.append (v.append (cond.survey v) (Stmt.surveyAll v body)) (Expr.surveyOption v otherwise)
  | .whileLoop cond body => v.append (cond.survey v) (Stmt.surveyAll v body)
  | .forLoop _ subject body => v.append (subject.survey v) (Stmt.surveyAll v body)
  | .select subject arms => v.append (subject.survey v) (Arm.surveyAll v arms)
  | .closure _ body => body.survey v
  | .attributed attrs inner => v.append (Expr.surveyAll v attrs) (inner.survey v)

def Expr.surveyAll (v : Survey M) : List Expr → M
  | [] => v.nothing
  | e :: rest => v.append (e.survey v) (Expr.surveyAll v rest)

def Expr.surveyOption (v : Survey M) : Option Expr → M
  | none => v.nothing
  | some e => e.survey v

def Arm.surveyAll (v : Survey M) : List Arm → M
  | [] => v.nothing
  | .mk _ before body :: rest =>
    v.append (v.append (Expr.surveyAll v before) (body.survey v)) (Arm.surveyAll v rest)

def Stmt.survey (v : Survey M) : Stmt → M
  | .bind _ init otherwise => v.append (Expr.surveyOption v init) (Expr.surveyOption v otherwise)
  | .item item => item.survey v
  | .expr e => e.survey v

def Stmt.surveyAll (v : Survey M) : List Stmt → M
  | [] => v.nothing
  | s :: rest => v.append (s.survey v) (Stmt.surveyAll v rest)

def Member.surveyAll (v : Survey M) : List Member → M
  | [] => v.nothing
  | .function sig body :: rest => v.append (Stmt.surveyBody v sig body) (Member.surveyAll v rest)
  | .constant value :: rest => v.append (value.survey v) (Member.surveyAll v rest)

def Stmt.surveyBody (v : Survey M) (sig : Signature) : Option (List Stmt) → M
  | none => v.required sig
  | some stmts => v.routine sig (Stmt.surveyAll v stmts)

def Item.survey (v : Survey M) : Item → M
  | .function sig stmts => v.routine sig (Stmt.surveyAll v stmts)
  | .implBlock _ _ _ members => Member.surveyAll v members
  | .traitDef _ _ members => Member.surveyAll v members
  | .module _ pos items => v.module pos (Item.surveyAll v items)
  | .record _ => v.nothing
  | .enumeration _ parts => Expr.surveyAll v parts
  | .uses _ attrs => Expr.surveyAll v attrs
  | .other parts => Expr.surveyAll v parts

/-- What a survey makes of the items of a file. -/
def Item.surveyAll (v : Survey M) : List Item → M
  | [] => v.nothing
  | i :: rest => v.append (i.survey v) (Item.surveyAll v rest)

end

end Calligraph
