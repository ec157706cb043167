import Calligraph.Syntax.Basic

/-!
# The text of types

How the types of a routine's parameters are shown. Lifetimes are left out.
-/

namespace Calligraph

def ConstText.render : ConstText → String
  | .digits text => text
  | .names path => "::".intercalate path
  | .other => "_"

/-- Generic arguments, shown only if there are any. -/
def angled (args : List String) : String :=
  if args.isEmpty then "" else "<" ++ ", ".intercalate args ++ ">"

mutual

def Ty.render : Ty → String
  | .path p => p.render
  | .reference _ mutable target => (if mutable then "&mut " else "&") ++ target.render
  | .pointer mutable target => (if mutable then "*mut " else "*const ") ++ target.render
  | .slice element => "[" ++ element.render ++ "]"
  | .array element length => "[" ++ element.render ++ "; " ++ length.render ++ "]"
  | .tuple [element] => "(" ++ element.render ++ ",)"
  | .tuple elements => "(" ++ ", ".intercalate (Ty.renderAll elements) ++ ")"
  | .paren inner => "(" ++ inner.render ++ ")"
  | .implTrait bounds => "impl " ++ " + ".intercalate (Bound.renderAll bounds)
  | .dynTrait bounds => "dyn " ++ " + ".intercalate (Bound.renderAll bounds)
  | .function _ params output =>
    "fn(" ++ ", ".intercalate (Ty.renderAll params) ++ ")" ++ Ty.renderOutput output
  | .never => "!"
  | .infer => "_"
  | .expansion path => "::".intercalate path ++ "!(..)"
  | .silent => "_"

def Ty.renderAll : List Ty → List String
  | [] => []
  | t :: rest => t.render :: Ty.renderAll rest

def Ty.renderOutput : Option Ty → String
  | none => ""
  | some t => " -> " ++ t.render

def Path.render : Path → String
  | .plain rooted segments =>
    (if rooted then "::" else "") ++ "::".intercalate (Segment.renderAll segments)
  | .qualified self [] rest =>
    "<" ++ self.render ++ ">::" ++ "::".intercalate (Segment.renderAll rest)
  | .qualified self trait rest =>
    "<" ++ self.render ++ " as " ++ "::".intercalate (Segment.renderAll trait) ++ ">::" ++
      "::".intercalate (Segment.renderAll rest)

def Segment.render : Segment → String
  | .plain name => name
  | .angled name args => name ++ Calligraph.angled (GenericArg.renderAll args)
  | .arrow name inputs output =>
    name ++ "(" ++ ", ".intercalate (Ty.renderAll inputs) ++ ")" ++ Ty.renderOutput output

def Segment.renderAll : List Segment → List String
  | [] => []
  | s :: rest => s.render :: Segment.renderAll rest

/-- The text of a generic argument; a lifetime has none. -/
def GenericArg.render : GenericArg → Option String
  | .lifetime _ => none
  | .type ty => some ty.render
  | .value text => some text.render
  | .assocType name ty => some (name ++ " = " ++ ty.render)
  | .assocValue name text => some (name ++ " = " ++ text.render)
  | .constraint name bounds => some (name ++ ": " ++ " + ".intercalate (Bound.renderAll bounds))

def GenericArg.renderAll : List GenericArg → List String
  | [] => []
  | a :: rest => a.render.toList ++ GenericArg.renderAll rest

/-- The text of a bound; only traits have one. -/
def Bound.render : Bound → Option String
  | .trait maybe _ path => some ((if maybe then "?" else "") ++ path.render)
  | .lifetime _ => none
  | .capture _ => none
  | .silent => none

def Bound.renderAll : List Bound → List String
  | [] => []
  | b :: rest => b.render.toList ++ Bound.renderAll rest

end

/-- The texts of a routine's parameter types, without the receiver. -/
def Signature.renderParams (sig : Signature) : List String :=
  sig.params.filterMap fun
    | .receiver => none
    | .typed _ ty => some ty.render

end Calligraph
