/-!
Lists without repetition, in the order in which their members first occur.
-/

namespace ResourceLibrary

universe u
variable {α : Type u} [DecidableEq α]

def addNew (members : List α) (member : α) : List α :=
  if member ∈ members then members else members ++ [member]

def distinct (items : List α) : List α := items.foldl addNew []

theorem mem_addNew {members : List α} {member other : α} :
    other ∈ addNew members member ↔ other ∈ members ∨ other = member := by
  unfold addNew
  split <;> grind

theorem nodup_addNew {members : List α} (single : members.Nodup) (member : α) :
    (addNew members member).Nodup := by
  unfold addNew
  split
  · exact single
  · next fresh =>
    rw [List.nodup_append]
    refine ⟨single, by simp, ?_⟩
    rintro a present b added rfl
    exact fresh (by simpa using (List.mem_singleton.mp added) ▸ present)

theorem mem_foldl_addNew {items members : List α} {other : α} :
    other ∈ items.foldl addNew members ↔ other ∈ members ∨ other ∈ items := by
  induction items generalizing members with
  | nil => simp
  | cons item rest ih => simp [ih, mem_addNew, or_assoc]

theorem nodup_foldl_addNew {items members : List α} (single : members.Nodup) :
    (items.foldl addNew members).Nodup := by
  induction items generalizing members with
  | nil => exact single
  | cons item rest ih => exact ih (nodup_addNew single item)

theorem mem_distinct {items : List α} {other : α} : other ∈ distinct items ↔ other ∈ items := by
  simp [distinct, mem_foldl_addNew]

theorem nodup_distinct (items : List α) : (distinct items).Nodup := nodup_foldl_addNew .nil

end ResourceLibrary
