import FeedOutline.Compile
import FeedOutline.Proofs.Distinct
import FeedOutline.Proofs.Flat.Inheritance

/-!
Leaving out repeated entries. What is left are the first occurrences in their order, and to leave
repetitions out before the marker is taken off changes nothing.
-/
namespace FeedOutline

theorem dedupe_append (xs ys : List FlatEntry) :
    dedupe (xs ++ ys) = dedupe xs ++ (dedupe ys).filter fun e => e ∉ xs := by
  simpa [dedupe] using eraseDups_append_eq xs ys

theorem dedupe_dedupe (xs : List FlatEntry) : dedupe (dedupe xs) = dedupe xs :=
  eraseDups_eq_self (nodup_eraseDups xs)

/-- Entries that the marker alone tells apart become one only once it is taken off. -/
theorem dedupe_cleanup_dedupe (marker : String) (xs : List FlatEntry) :
    dedupe (cleanup marker (dedupe xs)) = dedupe (cleanup marker xs) :=
  eraseDups_map_eraseDups (FlatEntry.withoutTag marker) xs

example : dedupe (cleanup "m" [⟨"a", ["m", "x"]⟩, ⟨"b", []⟩, ⟨"a", ["x", "m"]⟩]) =
    [⟨"a", ["x"]⟩, ⟨"b", []⟩] := by
  decide

/-- One pass leaves exactly the first occurrences, as do two, and an early pass changes neither which
entries are compiled nor their order. -/
theorem dedupe_stable (xs ys : List FlatEntry) (marker : String) :
    (∀ firsts, firsts = dedupe xs ↔ FirstOccurrences xs firsts) ∧
      dedupe (xs ++ ys) = dedupe xs ++ (dedupe ys).filter (fun e => e ∉ xs) ∧
      dedupe (dedupe xs) = dedupe xs ∧
      dedupe (cleanup marker (dedupe xs)) = dedupe (cleanup marker xs) ∧
      ∀ (s : Selection) (trees : List Outline.Node),
        s.entriesOf trees = dedupe (cleanup s.marker (trees.flatMap flatten)) := by
  have hfirst : FirstOccurrences xs (dedupe xs) := firstOccurrences_eraseDups xs
  refine ⟨fun firsts => ⟨?_, fun h => h.unique hfirst⟩, dedupe_append xs ys, dedupe_dedupe xs,
    dedupe_cleanup_dedupe marker xs, fun s trees => ?_⟩
  · rintro rfl
    exact hfirst
  · exact dedupe_cleanup_dedupe s.marker (trees.flatMap flatten)

end FeedOutline
