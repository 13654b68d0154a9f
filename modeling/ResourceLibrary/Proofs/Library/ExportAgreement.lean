import ResourceLibrary.Proofs.Library.SelectionAgreement

/-!
Exports of frozen modules in two registries. Main statement: they are the same declaration, since
what they say of providers does not depend on numbers.
-/

namespace ResourceLibrary.Query
open World
variable {library : Library} {world base : World library} {i j : ResourceId}
  (tree : library.arena.IsTree)
include tree

theorem forall₂_climb {steps : Nat} {a b : Node} (alike : a.Alike world.Same b) :
    List.Forall₂ (Node.Alike world.Same) (ancestors.climb (library.node world.left) steps a)
      (ancestors.climb (library.node world.right) steps b) := by
  induction steps generalizing a b with
  | zero => exact .nil
  | succ steps ih =>
    rw [ancestors.climb, ancestors.climb]
    rcases option_rel_cases alike.parent with ⟨left, right⟩ | ⟨i, j, left, right, related⟩
    · rw [left, right]
      exact .nil
    · rw [left, right]
      exact .cons (related.alike tree) (ih (related.alike tree))

theorem liesIn_eq {boundary : ResourceId} (frozen : boundary < library.frozen.size) {a b : Node}
    (alike : a.Alike world.Same b) :
    liesIn (library.node world.left) boundary a = liesIn (library.node world.right) boundary b := by
  have here : ∀ {n m : Node}, n.Alike world.Same m →
      decide (n.id = boundary) = decide (m.id = boundary) := by
    intro n m both
    exact decide_eq_decide.mpr
      (Relator.rel_eq world.biUnique_same both.id (world.same_of_lt frozen))
  have outer : ∀ {ns ms : List Node}, List.Forall₂ (Node.Alike world.Same) ns ms →
      ns.any (·.id = boundary) = ms.any (·.id = boundary) := by
    intro ns ms both
    induction both with
    | nil => rfl
    | cons head _ ih => rw [List.any_cons, List.any_cons, here head, ih]
  unfold liesIn ancestors
  rw [here alike, alike.path, outer (forall₂_climb tree alike)]

theorem exportIncludes_eq {boundary : ResourceId} (frozen : boundary < library.frozen.size)
    (category : Category) {a b : Node} (alike : a.Alike world.Same b) :
    exportIncludes (library.node world.left) boundary category a =
      exportIncludes (library.node world.right) boundary category b := by
  unfold exportIncludes
  rw [liesIn_eq tree frozen alike, alike.path, alike.deliverables]

theorem agree_exportDependencies {boundary : ResourceId} (frozen : boundary < library.frozen.size)
    (inside : i < library.frozen.size) :
    Agree world (fun _ => Eq) (exportDependencies boundary i) (exportDependencies boundary i) := by
  have found : Agree world (fun _ => List.Forall₂ Eq)
      (Category.exportOrder.mapM fun category => do
        let providers ← tierProviders i .runtime true (some category)
        let nodes ← nodes
        return (providers.map fun id => exportIncludes nodes boundary category (nodes id)).flatten)
      (Category.exportOrder.mapM fun category => do
        let providers ← tierProviders i .runtime true (some category)
        let nodes ← nodes
        return (providers.map fun id =>
          exportIncludes nodes boundary category (nodes id)).flatten) := by
    refine agree_mapM (fun _ _ _ _ _ related => related) ?_ (List.forall₂_same.mpr fun _ _ => rfl)
    rintro later after category _ rfl
    have near : World.Near later later i i := .inl (later.same_of_lt inside)
    apply agree_bind (agree_tierProviders tree (.refl later) near _ _ _)
    intro last onward providers others related
    refine agree_nodes_bind (agree_pure ?_)
    have shown : List.Forall₂ Eq
        (providers.map fun id => exportIncludes (library.node last.left) boundary category
          (library.node last.left id))
        (others.map fun id => exportIncludes (library.node last.right) boundary category
          (library.node last.right id)) := by
      refine List.rel_map ?_ related
      intro x y below
      exact exportIncludes_eq tree frozen category (below.alike tree onward)
    rw [List.forall₂_eq_eq_eq] at shown
    rw [shown]
  apply agree_bind found
  intro _ _ xs ys same
  rw [List.forall₂_eq_eq_eq] at same
  rw [same]
  exact agree_pure rfl

/-- Numbers grow downwards, so a depth that with the number exceeds all frozen ones is enough. -/
theorem agree_exportNode {boundary : ResourceId} (frozen : boundary < library.frozen.size)
    {depth other : Nat} (inside : i < library.frozen.size)
    (leftRoom : library.frozen.size < depth + i) (rightRoom : library.frozen.size < other + i) :
    Agree world (fun _ => Eq) (exportNode boundary depth i) (exportNode boundary other i) := by
  induction depth generalizing other i world with
  | zero =>
    unfold ResourceId at *
    omega
  | succ depth ih =>
    cases other with
    | zero =>
      unfold ResourceId at *
      omega
    | succ other =>
      rw [exportNode, exportNode]
      apply agree_node_bind
      rw [← Library.node_eq_of_lt inside world.left world.right]
      have here := Library.node?_of_lt inside world.left
      split
      · have below : Agree world (fun _ => List.Forall₂ Eq)
            ((library.node world.left i).children.mapM (exportNode boundary depth))
            ((library.node world.left i).children.mapM (exportNode boundary other)) := by
          have listed : List.Forall₂ (fun x y => x = y ∧ x ∈ (library.node world.left i).children)
              (library.node world.left i).children (library.node world.left i).children :=
            List.forall₂_same.mpr fun child member => ⟨rfl, member⟩
          refine agree_mapM (fun _ _ _ _ _ related => related) ?_ listed
          rintro later after child _ ⟨rfl, member⟩
          obtain ⟨name, named⟩ := Node.exists_child?_of_mem_children member
          obtain ⟨inner, there, joined, _⟩ := tree.joined_of_child? here named
          have deeper := joined.later
          rw [tree.own here, tree.own there] at deeper
          refine ih (Library.lt_of_node? there) ?_ ?_
          · unfold ResourceId at *
            omega
          · unfold ResourceId at *
            omega
        apply agree_bind below
        intro _ _ xs ys same
        rw [List.forall₂_eq_eq_eq] at same
        rw [same]
        exact agree_pure rfl
      · apply agree_bind (agree_exportDependencies tree frozen inside)
        rintro _ _ dependencies _ rfl
        exact agree_pure rfl

theorem agree_exportModule (world : World library) (frozen : i < library.frozen.size) :
    Agree world (fun _ => Eq) (exportModule i) (exportModule i) := by
  apply agree_nodes_bind
  simp only
  rw [← Library.node_eq_of_lt frozen world.left world.right]
  split
  · exact ⟨world, .refl world, .inr ⟨.exportOfRoot, rfl, rfl⟩⟩
  · apply agree_depth_bind
    have deep : ∀ registry : Registry,
        library.frozen.size < registry.next library + 1 + i := by
      intro registry
      unfold Registry.next ResourceId
      omega
    apply agree_bind (agree_exportNode tree frozen frozen (deep _) (deep _))
    rintro later after exported _ rfl
    rw [enclosing?_eq tree world (Library.node?_of_lt frozen world.left)]
    split
    · exact agree_pure rfl
    · exact agree_ofExcept_self later _

end ResourceLibrary.Query
