/-!
Lists of keys and values in which a key stays at the place where it first came.
-/
namespace FeedOutline

def upsert [DecidableEq α] (key : α) (change : Option β → β) : List (α × β) → List (α × β)
  | [] => [(key, change none)]
  | (k, v) :: rest =>
    if k = key then (k, change (some v)) :: rest else (k, v) :: upsert key change rest

end FeedOutline
