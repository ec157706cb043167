/-!
# Positions in a text

Lines are counted from one and columns from zero, both in characters.
-/

namespace Calligraph

/-- A place in a text. -/
structure Position where
  line : Nat
  column : Nat
deriving Repr, DecidableEq, Inhabited

namespace Position

def start : Position := ⟨1, 0⟩

/-- The place after reading `c`. -/
def next (p : Position) (c : Char) : Position :=
  if c = '\n' then ⟨p.line + 1, 0⟩ else ⟨p.line, p.column + 1⟩

def advance (p : Position) (cs : List Char) : Position :=
  cs.foldl next p

end Position

end Calligraph
