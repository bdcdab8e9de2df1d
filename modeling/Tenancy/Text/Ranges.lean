/-!
Sets of characters as ranges of code points.
-/

namespace Tenancy.Text

abbrev Ranges := List (Nat × Nat)

def Ranges.holds (rs : Ranges) (c : Char) : Bool :=
  rs.any fun r => decide (r.1 ≤ c.toNat) && decide (c.toNat ≤ r.2)

end Tenancy.Text
