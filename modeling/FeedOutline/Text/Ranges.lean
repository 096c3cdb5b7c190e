/-!
Sets of characters given by runs of code points.
-/
namespace FeedOutline.Text

abbrev Ranges := List (Nat × Nat)

def Ranges.has (rs : Ranges) (c : Char) : Bool :=
  rs.any fun r => r.1 ≤ c.toNat && c.toNat ≤ r.2

end FeedOutline.Text
