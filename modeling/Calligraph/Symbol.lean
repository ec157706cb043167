/-!
# Symbols

The nodes of a call graph. A routine is known by the text it is shown as, so two routines that are
shown alike are one node.
-/

namespace Calligraph

/-- A node of a call graph. -/
structure Symbol where
  text : String
deriving Repr, DecidableEq, Inhabited

namespace Symbol

/-- The caller of calls outside of any routine. -/
def moduleLevel : Symbol := ⟨"<module-level>"⟩

/-- The callee of calls whose target is not known. -/
def unresolved : Symbol := ⟨"<unresolved>"⟩

/-- The symbol stands for no routine. -/
def isSentinel (s : Symbol) : Bool :=
  s == moduleLevel || s == unresolved

/-- The symbol shown as `text`, which an empty text is not. -/
def ofText? (text : String) : Option Symbol :=
  if text.isEmpty then none else some ⟨text⟩

end Symbol

end Calligraph
