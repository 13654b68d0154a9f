import ResourceLibrary.Proofs.Library.Correspondence

/-!
Walks in two registries at once. The depths that bound them differ with the registries, but both are
deep enough: a node on the way has neighbours, so it was known at the start. Main statement: walks
over neighbours that correspond find nodes that correspond, in the same order.
-/

namespace ResourceLibrary

/-- The depth left to a walk exceeds the number of nodes below `limit` that are not on the way. -/
structure Room (limit depth : Nat) (above : List ResourceId) : Prop where
  single : above.Nodup
  below : ∀ node ∈ above, node < limit
  exact : depth + above.length = limit + 1

namespace Room
variable {limit depth : Nat} {above : List ResourceId}

theorem start (limit : Nat) : Room limit (limit + 1) [] := by
  constructor <;> simp

theorem length_le (room : Room limit depth above) : above.length ≤ limit := by
  have inside : above ⊆ List.range limit := by
    intro node member
    exact List.mem_range.mpr (room.below node member)
  have shorter := room.single.length_le_of_subset inside
  rwa [List.length_range] at shorter

theorem pos (room : Room limit depth above) : depth ≠ 0 := by
  have := room.length_le
  have := room.exact
  omega

theorem push (room : Room limit (depth + 1) above) {node : ResourceId} (known : node < limit)
    (fresh : node ∉ above) : Room limit depth (node :: above) := by
  refine ⟨List.nodup_cons.mpr ⟨fresh, room.single⟩, ?_, ?_⟩
  · intro other member
    rcases List.mem_cons.mp member with rfl | outer
    · exact known
    · exact room.below other outer
  · have := room.exact
    rw [List.length_cons]
    omega

end Room

theorem forall₂_takeWhile {rel : ResourceId → ResourceId → Prop} (unique : Relator.BiUnique rel)
    {i j : ResourceId} (related : rel i j) {xs ys : List ResourceId}
    (both : List.Forall₂ rel xs ys) :
    List.Forall₂ rel (xs.takeWhile (· ≠ i)) (ys.takeWhile (· ≠ j)) := by
  induction both with
  | nil => exact .nil
  | @cons x y xs ys head _ ih =>
    have equal : x = i ↔ y = j := Relator.rel_eq unique head related
    by_cases same : x = i
    · have also : y = j := equal.mp same
      simp [same, also]
    · have also : y ≠ j := fun other => same (equal.mpr other)
      rw [List.takeWhile_cons_of_pos (by simpa using same),
        List.takeWhile_cons_of_pos (by simpa using also)]
      exact .cons head ih

namespace World
variable {library : Library}

def SameWalk (rel : World library → ResourceId → ResourceId → Prop) (world : World library)
    (left right : Walk ResourceId) : Prop :=
  List.Forall₂ (rel world) left.order right.order ∧
    List.Forall₂ (List.Forall₂ (rel world)) left.cycles right.cycles

theorem eq_of_sameWalk {world : World library} {among : ResourceId → Prop}
    {left right : Walk ResourceId}
    (same : SameWalk (fun _ i j => i = j ∧ among i) world left right) : left = right := by
  have order : left.order = right.order := by
    rw [← List.forall₂_eq_eq_eq]
    exact same.1.imp fun _ _ related => related.1
  have cycles : left.cycles = right.cycles := by
    rw [← List.forall₂_eq_eq_eq]
    apply same.2.imp
    intro first second related
    rw [← List.forall₂_eq_eq_eq]
    exact related.imp fun _ _ related => related.1
  cases left
  cases right
  rw [Walk.mk.injEq]
  exact ⟨order, cycles⟩

theorem lasting_sameWalk {rel : World library → ResourceId → ResourceId → Prop}
    (lasting : Lasting rel) : Lasting (SameWalk rel) := by
  intro world later left right since same
  exact ⟨lasting_forall₂ lasting since same.1,
    lasting_forall₂ (lasting_forall₂ lasting) since same.2⟩

end World

namespace Query
open World
variable {library : Library} {start : World library}
  {rel : World library → ResourceId → ResourceId → Prop} (lasting : Lasting rel)
  (unique : ∀ world, start.Later world → Relator.BiUnique (rel world))
  {nextLeft nextRight : ResourceId → Query (List ResourceId)}
  (step : ∀ world, start.Later world → ∀ i j, rel world i j →
    Agree world (fun later xs ys => List.Forall₂ (rel later) xs ys ∧
      (xs ≠ [] → i < start.left.next library ∧ j < start.right.next library))
      (nextLeft i) (nextRight j))
include lasting unique step

theorem agree_visit {depth other : Nat} {above below : List ResourceId} {world : World library}
    (since : start.Later world) (leftRoom : Room (start.left.next library) depth above)
    (rightRoom : Room (start.right.next library) other below)
    (way : List.Forall₂ (rel world) above below) {left right : Walk ResourceId}
    (same : SameWalk rel world left right) {i j : ResourceId} (here : rel world i j) :
    Agree world (SameWalk rel) (Walk.visit nextLeft depth above left i)
      (Walk.visit nextRight other below right j) := by
  induction depth generalizing other above below world left right i j with
  | zero => exact absurd rfl leftRoom.pos
  | succ depth ih =>
    cases other with
    | zero => exact absurd rfl rightRoom.pos
    | succ other =>
      have opened : i ∈ above ↔ j ∈ below := List.rel_mem (unique world since) here way
      have emitted : i ∈ left.order ↔ j ∈ right.order :=
        List.rel_mem (unique world since) here same.1
      rw [Walk.visit, Walk.visit]
      by_cases closes : i ∈ above
      · rw [if_pos closes, if_pos (opened.mp closes)]
        have cycle : List.Forall₂ (rel world) (Walk.cycleFrom i above)
            (Walk.cycleFrom j below) := by
          have taken := forall₂_takeWhile (unique world since) here way
          exact .cons here (List.rel_append (List.rel_reverse taken) (.cons here .nil))
        exact agree_pure ⟨same.1, List.rel_append same.2 (.cons cycle .nil)⟩
      · have fresh : j ∉ below := fun member => closes (opened.mpr member)
        rw [if_neg closes, if_neg fresh]
        by_cases done : i ∈ left.order
        · rw [if_pos done, if_pos (emitted.mp done)]
          exact agree_pure same
        · rw [if_neg done, if_neg (fun member => done (emitted.mpr member))]
          apply agree_bind (step world since i j here)
          intro later after xs ys found
          have visited : Agree later (SameWalk rel)
              (xs.foldlM (Walk.visit nextLeft depth (i :: above)) left)
              (ys.foldlM (Walk.visit nextRight other (j :: below)) right) := by
            by_cases none : xs = []
            · have also : ys = [] := by
                have both := found.1
                rw [none] at both
                exact List.forall₂_nil_left_iff.mp both
              rw [none, also]
              exact agree_pure (lasting_sameWalk lasting after same)
            · obtain ⟨leftKnown, rightKnown⟩ := found.2 none
              refine agree_foldlM lasting ?_ found.1 (lasting_sameWalk lasting after same)
              intro last onward walk other sameWalk x y related
              have total := since.trans (after.trans onward)
              refine ih total (leftRoom.push leftKnown closes) (rightRoom.push rightKnown fresh)
                ?_ sameWalk related
              exact .cons (lasting (after.trans onward) here)
                (lasting_forall₂ lasting (after.trans onward) way)
          apply agree_bind visited
          intro last onward walk other sameWalk
          have closing := lasting (after.trans onward) here
          exact agree_pure ⟨List.rel_append sameWalk.1 (.cons closing .nil), sameWalk.2⟩

/-- Walks over neighbours that correspond find the same, whatever is registered on the way. -/
theorem agree_postOrder {starts others : List ResourceId}
    (related : List.Forall₂ (rel start) starts others) :
    Agree start (SameWalk rel)
      (Walk.postOrder (start.left.next library + 1) nextLeft starts)
      (Walk.postOrder (start.right.next library + 1) nextRight others) := by
  refine agree_foldlM lasting ?_ related ⟨.nil, .nil⟩
  intro later since left right same i j here
  exact agree_visit lasting unique step since (Room.start _) (Room.start _) .nil same here

theorem agree_closure {starts others : List ResourceId}
    (related : List.Forall₂ (rel start) starts others) :
    Agree start (fun later => List.Forall₂ (rel later)) (closure starts nextLeft)
      (closure others nextRight) := by
  apply agree_depth_bind
  apply agree_bind (agree_postOrder lasting unique step related)
  intro later since left right same
  exact agree_pure same.1

/-- The nodes on the way to a node were emitted before it, so they leave room as in post-order. -/
theorem agree_enter {depth other : Nat} {above below : List ResourceId} {world : World library}
    (since : start.Later world) (leftRoom : Room (start.left.next library) depth above)
    (rightRoom : Room (start.right.next library) other below) {order orders : List ResourceId}
    (same : List.Forall₂ (rel world) order orders) (leftWay : above ⊆ order)
    (rightWay : below ⊆ orders) {i j : ResourceId} (here : rel world i j) :
    Agree world (fun later xs ys => List.Forall₂ (rel later) xs ys ∧ order ⊆ xs ∧ orders ⊆ ys)
      (Walk.enter nextLeft depth order i) (Walk.enter nextRight other orders j) := by
  induction depth generalizing other above below world order orders i j with
  | zero => exact absurd rfl leftRoom.pos
  | succ depth ih =>
    cases other with
    | zero => exact absurd rfl rightRoom.pos
    | succ other =>
      have emitted : i ∈ order ↔ j ∈ orders := List.rel_mem (unique world since) here same
      rw [Walk.enter, Walk.enter]
      by_cases done : i ∈ order
      · rw [if_pos done, if_pos (emitted.mp done)]
        exact agree_pure ⟨same, fun _ => id, fun _ => id⟩
      · have fresh : j ∉ orders := fun member => done (emitted.mpr member)
        rw [if_neg done, if_neg fresh]
        apply agree_bind (step world since i j here)
        intro later after xs ys found
        have begun : List.Forall₂ (rel later) (order ++ [i]) (orders ++ [j]) :=
          List.rel_append (lasting_forall₂ lasting after same) (.cons (lasting after here) .nil)
        by_cases none : xs = []
        · have also : ys = [] := by
            have both := found.1
            rw [none] at both
            exact List.forall₂_nil_left_iff.mp both
          rw [none, also]
          exact agree_pure
            ⟨begun, List.subset_append_left order [i], List.subset_append_left orders [j]⟩
        · obtain ⟨leftKnown, rightKnown⟩ := found.2 none
          have opened : Agree later (fun last as bs => List.Forall₂ (rel last) as bs ∧
              order ++ [i] ⊆ as ∧ orders ++ [j] ⊆ bs)
              (xs.foldlM (Walk.enter nextLeft depth) (order ++ [i]))
              (ys.foldlM (Walk.enter nextRight other) (orders ++ [j])) := by
            refine agree_foldlM lasting ?_ found.1 ⟨begun, fun _ => id, fun _ => id⟩
            rintro last onward as bs ⟨both, leftKept, rightKept⟩ x y related
            have leftFresh : i ∉ above := fun member => done (leftWay member)
            have rightFresh : j ∉ below := fun member => fresh (rightWay member)
            refine (ih (since.trans (after.trans onward)) (leftRoom.push leftKnown leftFresh)
              (rightRoom.push rightKnown rightFresh) both ?_ ?_ related).imp ?_
            · refine List.cons_subset.mpr ⟨leftKept (by simp), ?_⟩
              exact fun node member => leftKept (by simp [leftWay member])
            · refine List.cons_subset.mpr ⟨rightKept (by simp), ?_⟩
              exact fun node member => rightKept (by simp [rightWay member])
            · intro final _ more others grown
              exact ⟨grown.1, List.Subset.trans leftKept grown.2.1,
                List.Subset.trans rightKept grown.2.2⟩
          apply opened.imp
          intro last _ as bs grown
          exact ⟨grown.1, List.Subset.trans (List.subset_append_left order [i]) grown.2.1,
            List.Subset.trans (List.subset_append_left orders [j]) grown.2.2⟩

theorem agree_preOrder {starts others : List ResourceId}
    (related : List.Forall₂ (rel start) starts others) :
    Agree start (fun later => List.Forall₂ (rel later))
      (Walk.preOrder (start.left.next library + 1) nextLeft starts)
      (Walk.preOrder (start.right.next library + 1) nextRight others) := by
  refine agree_foldlM lasting ?_ related .nil
  intro later since left right same i j here
  apply (agree_enter lasting unique step since (Room.start _) (Room.start _) same
    (List.nil_subset _) (List.nil_subset _) here).imp
  exact fun _ _ _ _ grown => grown.1

end Query
end ResourceLibrary
