import Calligraph.Text.IdentifierTable

/-!
# Identifier characters
-/

namespace Calligraph.Text

def inRanges (ranges : Array (Nat × Nat)) (n : Nat) : Bool :=
  ranges.any fun (first, last) => first ≤ n && n ≤ last

def isIdentStart (c : Char) : Bool :=
  if c.toNat < 128 then c.isAlpha || c == '_' else inRanges identStartRanges c.toNat

def isIdentContinue (c : Char) : Bool :=
  if c.toNat < 128 then
    c.isAlphanum || c == '_'
  else
    inRanges identStartRanges c.toNat || inRanges identContinueRanges c.toNat

end Calligraph.Text
