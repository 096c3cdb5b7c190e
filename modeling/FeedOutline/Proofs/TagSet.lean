import FeedOutline.Proofs.Distinct
import FeedOutline.TagSet
import Mathlib.Data.String.Basic
import Mathlib.Data.List.Sort

/-!
Tag sets by their members: what each operation contains, and that the members determine the set.
-/
namespace FeedOutline

namespace TagSet

theorem mem_def {t : String} {s : TagSet} : t ∈ s ↔ t ∈ s.toList := Iff.rfl

@[simp] theorem not_mem_empty (t : String) : t ∉ empty := by
  simp [mem_def, empty]

@[simp] theorem mem_insert {t u : String} {s : TagSet} : u ∈ s.insert t ↔ u = t ∨ u ∈ s :=
  mem_place

theorem mem_foldl_insert {tags : List String} {s : TagSet} {t : String} :
    t ∈ tags.foldl insert s ↔ t ∈ tags ∨ t ∈ s := by
  induction tags generalizing s with
  | nil => simp
  | cons u tags ih =>
    rw [List.foldl_cons, ih, mem_insert, List.mem_cons]
    tauto

@[simp] theorem mem_ofList {tags : List String} {t : String} : t ∈ ofList tags ↔ t ∈ tags := by
  simp [ofList, mem_foldl_insert]

@[simp] theorem mem_union {s u : TagSet} {t : String} : t ∈ s.union u ↔ t ∈ s ∨ t ∈ u := by
  rw [union, mem_foldl_insert, mem_def, mem_def, or_comm]

@[simp] theorem mem_diff {s u : TagSet} {t : String} : t ∈ s.diff u ↔ t ∈ s ∧ t ∉ u := by
  simp [diff, contains, mem_def]

theorem ext {s u : TagSet} (h : ∀ t, t ∈ s ↔ t ∈ u) : s = u := by
  obtain ⟨xs, hxs⟩ := s
  obtain ⟨ys, hys⟩ := u
  have hperm : xs.Perm ys :=
    (List.perm_ext_iff_of_nodup (hxs.imp fun h => ne_of_lt h) (hys.imp fun h => ne_of_lt h)).2 h
  have heq : xs = ys := hperm.eq_of_pairwise (fun _ _ _ _ h h' => (lt_asymm h h').elim) hxs hys
  subst heq
  rfl

theorem nodup_toList (s : TagSet) : s.toList.Nodup :=
  s.sorted.imp fun h => ne_of_lt h

@[simp] theorem ofList_toList (s : TagSet) : ofList s.toList = s :=
  ext fun _ => mem_ofList

end TagSet

end FeedOutline
