import Mathlib.Data.List.Lex
import Mathlib.Data.String.Basic
import ResourceLibrary.Library.Selection

/-!
Nodes in path order. Main statement: sorting by paths and numbers sorts the paths, whatever the
numbers are.
-/

namespace ResourceLibrary

theorem ResourcePath.lt_of_lt_of_lt {a b c : ResourcePath} (first : a < b) (second : b < c) :
    a < c :=
  lt_trans (a := a.segments) first second

theorem ResourcePath.not_lt_self (a : ResourcePath) : ¬a < a := lt_irrefl a.segments

theorem ResourcePath.lt_or_lt_of_ne {a b : ResourcePath} (different : a ≠ b) : a < b ∨ b < a := by
  refine lt_or_gt_of_ne (a := a.segments) fun same => different ?_
  cases a
  cases b
  exact congrArg _ same

namespace Query

theorem pathOrder_trans {a b c : Node} (first : pathOrder a b = true)
    (second : pathOrder b c = true) : pathOrder a c = true := by
  unfold pathOrder at *
  by_cases ab : a.path = b.path
  · rw [if_pos ab] at first
    by_cases bc : b.path = c.path
    · rw [if_pos bc] at second
      rw [if_pos (ab.trans bc)]
      simp only [decide_eq_true_eq] at first second ⊢
      exact Nat.le_trans first second
    · rw [if_neg bc] at second
      rw [ab, if_neg bc]
      exact second
  · rw [if_neg ab] at first
    by_cases bc : b.path = c.path
    · rw [← bc, if_neg ab]
      exact first
    · rw [if_neg bc] at second
      simp only [decide_eq_true_eq] at first second
      have below := ResourcePath.lt_of_lt_of_lt first second
      have ac : a.path ≠ c.path := by
        intro same
        rw [same] at below
        exact ResourcePath.not_lt_self _ below
      rw [if_neg ac]
      simpa using below

theorem pathOrder_total (a b : Node) : pathOrder a b = true ∨ pathOrder b a = true := by
  unfold pathOrder
  by_cases same : a.path = b.path
  · rw [if_pos same, if_pos same.symm]
    simpa using Nat.le_total a.id b.id
  · rw [if_neg same, if_neg (Ne.symm same)]
    simpa using ResourcePath.lt_or_lt_of_ne same

theorem segments_le_of_pathOrder {a b : Node} (ordered : pathOrder a b = true) :
    a.path.segments ≤ b.path.segments := by
  unfold pathOrder at ordered
  split at ordered
  · next same => rw [same]
  · have below : a.path < b.path := by simpa using ordered
    exact le_of_lt (a := a.path.segments) below

theorem paths_mergeSort {left right : ResourceId → Node} {xs ys : List ResourceId}
    (same : xs.map (fun id => (left id).path) = ys.map fun id => (right id).path) :
    (xs.mergeSort fun a b => pathOrder (left a) (left b)).map (fun id => (left id).path) =
      (ys.mergeSort fun a b => pathOrder (right a) (right b)).map fun id => (right id).path := by
  have sorted : ∀ (nodes : ResourceId → Node) (ids : List ResourceId),
      ((ids.mergeSort fun a b => pathOrder (nodes a) (nodes b)).map
        fun id => (nodes id).path).Pairwise fun a b => a.segments ≤ b.segments := by
    intro nodes ids
    refine List.pairwise_map.mpr ((List.pairwise_mergeSort ?_ ?_ ids).imp ?_)
    · exact fun a b c => pathOrder_trans
    · intro a b
      simpa using pathOrder_total (nodes a) (nodes b)
    · exact fun ordered => segments_le_of_pathOrder ordered
  refine List.Perm.eq_of_pairwise ?_ (sorted left xs) (sorted right ys) ?_
  · intro a b _ _ below above
    cases a
    cases b
    exact congrArg _ (le_antisymm below above)
  · apply ((List.mergeSort_perm _ _).map _).trans
    rw [same]
    exact ((List.mergeSort_perm _ _).map _).symm

end Query
end ResourceLibrary
