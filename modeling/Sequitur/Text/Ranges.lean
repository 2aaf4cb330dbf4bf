/-
Sets of characters given as ranges of code points, both ends included.
-/
namespace Sequitur.Text

/-- ranges of code points, both ends included -/
abbrev Ranges := List (Nat × Nat)

/-- whether a character lies in one of the ranges -/
def Ranges.contains (rs : Ranges) (c : Char) : Bool :=
  rs.any fun r => r.1 ≤ c.toNat && c.toNat ≤ r.2

end Sequitur.Text
