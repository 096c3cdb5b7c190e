import FeedOutline.Data.Value

/-!
Deep merging: where both sides have a mapping under one key the mappings are merged, and else the second
side wins.
-/
namespace FeedOutline.Data

namespace Mapping

def valueOf? (m : Mapping) (key : Scalar) : Option Value :=
  (List.find? (·.1.sameKey key) m).map (·.2)

mutual

def mergeValue : Option Value → Value → Value
  | some (.map bs), .map es => .map (merge bs es)
  | _, v => v

/-- Keys of the first mapping keep their places, and new ones follow. -/
def merge (base : Mapping) : Mapping → Mapping
  | [] => base
  | (k, v) :: es => merge (base.set k (mergeValue (valueOf? base k) v)) es

end

end Mapping

end FeedOutline.Data
