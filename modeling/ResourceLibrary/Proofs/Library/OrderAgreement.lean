import ResourceLibrary.Proofs.Library.ProviderAgreement
import ResourceLibrary.Proofs.Walk.PostOrder

/-!
Dependency order in two registries. Main statements: modules that a node relies on correspond, and
lists of candidates that correspond are sorted alike, or fail with the same cycle.
-/

namespace ResourceLibrary
open Registry (Grows Reached Within)

namespace World
variable {library : Library} {world base later : World library} {i j : ResourceId}

/-- What the walk over provider modules meets: nodes that corresponded before, and anonymous nodes
that it does not go on from. -/
def Met (base world : World library) (i j : ResourceId) : Prop :=
  world.Same i j ∧ (base.Same i j ∨ (library.node world.left i).isAnonymous = true)

theorem lasting_met (base : World library) : Lasting (Met base) := by
  intro world later i j since met
  refine ⟨lasting_same since met.1, met.2.imp id fun anonymous => ?_⟩
  rw [since.1.node met.1.lt_next.1]
  exact anonymous

theorem biUnique_met (base world : World library) : Relator.BiUnique (base.Met world) := by
  constructor
  · intro i k j first second
    exact world.biUnique_same.1 first.1 second.1
  · intro i j k first second
    exact world.biUnique_same.2 first.1 second.1

theorem Near.met (since : base.Later world) (near : base.Near world i j) : base.Met world i j :=
  ⟨near.same since, near.imp id fun leaf => leaf.isAnonymous.1⟩

theorem Leaf.enclosing? (leaf : world.Leaf i j) {outer : Node}
    (around : enclosing? (library.node world.left) (library.node world.left i) = some outer) :
    outer.isAnonymous = true ∧ library.node world.left outer.id = outer := by
  obtain ⟨urn, inside, _⟩ := leaf.within
  unfold ResourceLibrary.enclosing? at around
  cases up : (library.node world.left i).parent with
  | none => simp [up] at around
  | some above =>
    rw [up, Option.map_some, Option.filter_eq_some_iff] at around
    obtain ⟨here, inner⟩ := around
    cases here
    obtain ⟨level, within⟩ := (world.leftReached.links inside).2.1 above up
    refine ⟨?_, by rw [(world.leftReached.links within).1]⟩
    apply (synthetic_of_within world.leftReached within).isAnonymous.resolve_left
    simpa using inner

end World

namespace Query
open World
variable {library : Library} {world base : World library} {i j : ResourceId}
  (tree : library.arena.IsTree)

section
include tree

theorem forall₂_childModules (since : base.Later world) {a b : Node}
    (children : List.Forall₂ base.Same a.children b.children) :
    List.Forall₂ base.Same (childModules (library.node world.left) a)
      (childModules (library.node world.right) b) := by
  exact forall₂_filter (fun x y same => (same.alike_later tree since).isModule) children

theorem rel_outerModule (since : base.Later world) (near : base.Near world i j)
    (origin : ResourcePath) :
    Option.Rel (base.Met world)
      ((enclosing? (library.node world.left) (library.node world.left i)).bind fun parent =>
        if origin.startsWith parent.path then none else some parent.id)
      ((enclosing? (library.node world.right) (library.node world.right j)).bind fun parent =>
        if origin.startsWith parent.path then none else some parent.id) := by
  have around := alike_enclosing? tree (.refl world) (near.alike tree since)
  rcases option_rel_cases around with ⟨left, right⟩ | ⟨n, m, left, right, alike⟩
  · rw [left, right]
    exact .none
  · rw [left, right]
    simp only [Option.bind_some, alike.path]
    split
    · exact .none
    · refine .some ⟨alike.id, ?_⟩
      rcases near with same | leaf
      · have before := alike_enclosing? tree since (same.alike_later tree since)
        rw [left, right] at before
        cases before with
        | some outer => exact .inl outer.id
      · obtain ⟨anonymous, own⟩ := leaf.enclosing? left
        rw [own]
        exact .inr anonymous

/-- The walk over modules goes on alike, and it goes on only from nodes that corresponded before. -/
theorem agree_moduleStep (since : base.Later world) {x y : ResourceId} (same : base.Same i j)
    (met : base.Met world x y) (origin : ResourcePath) (scope : Scope) :
    Agree world (fun later xs ys => List.Forall₂ (base.Met later) xs ys ∧
      (xs ≠ [] → base.Same x y)) (moduleStep i origin scope x) (moduleStep j origin scope y) := by
  apply agree_nodes_bind
  have alike := met.1.alike tree
  have first : decide (x ≠ i) = decide (y ≠ j) := by
    have equal : x = i ↔ y = j :=
      Relator.rel_eq world.biUnique_same met.1 (lasting_same since same)
    simp [equal]
  simp only
  rw [← alike.isAnonymous, ← alike.path, ← first]
  split
  · exact agree_pure ⟨.nil, fun some => absurd rfl some⟩
  · next goesOn =>
    have known : base.Same x y := by
      refine met.2.resolve_right fun anonymous => goesOn ?_
      rw [anonymous, Bool.true_or]
    apply agree_bind (agree_aggregated tree since (.inl known) scope true)
    intro last onward providers others found
    have total := since.trans onward
    have seen : List.Forall₂ (base.Met last) providers others :=
      found.1.imp fun _ _ near => near.met total
    apply agree_nodes_bind
    rw [← alike.isModule]
    split
    · refine agree_pure ⟨?_, fun _ => known⟩
      have inner := forall₂_childModules tree total (known.alike_later tree since).children
      exact forall₂_foldl_addNew (biUnique_met base last)
        (inner.imp fun _ _ below => Near.met total (.inl below)) seen
    · refine agree_pure ⟨forall₂_distinct (biUnique_met base last) ?_, fun _ => known⟩
      refine List.rel_filterMap ?_ found.1
      intro provider other near
      exact rel_outerModule tree total near _

theorem agree_providerModules (since : base.Later world) (same : base.Same i j) (scope : Scope) :
    Agree world (fun _ => List.Forall₂ base.Same) (providerModules i scope)
      (providerModules j scope) := by
  apply agree_node_bind
  have origin := (same.alike_later tree since).path
  have started : List.Forall₂ (base.Met world) [i] [j] :=
    .cons (Near.met since (.inl same)) .nil
  rw [← origin]
  refine agree_bind (agree_closure (lasting_met base)
    (fun later _ => biUnique_met base later) ?_ started) ?_
  · intro later after x y met
    apply (agree_moduleStep tree (since.trans after) same met _ scope).imp
    intro last _ xs ys found
    refine ⟨found.1, fun some => ?_⟩
    obtain ⟨left, right⟩ := (found.2 some).lt_next
    exact ⟨Nat.lt_of_lt_of_le left since.1.next_le, Nat.lt_of_lt_of_le right since.2.next_le⟩
  · intro later after reached others found
    refine agree_nodes_bind (agree_pure ?_)
    have total := since.trans after
    have kept := forall₂_filter (q := fun module =>
        let node := library.node later.right module
        node.isModule && !node.isAnonymous &&
          !(library.node world.left i).path.startsWith node.path)
      (fun x y met => by
        have alike := met.1.alike tree
        simp only [← alike.isModule, ← alike.isAnonymous, ← alike.path]
        rfl) found
    apply ((List.forall₂_and_left _ _).mpr ⟨fun x member => member, kept⟩).imp
    rintro x y ⟨member, met⟩
    have named := (List.mem_filter.mp member).2
    refine met.2.resolve_right fun anonymous => ?_
    simp [anonymous] at named

end

theorem forall₂_filter_members {rel : ResourceId → ResourceId → Prop}
    (inside : ∀ i j, rel i j → base.Same i j) (since : base.Later world)
    {members others : List ResourceId} (listed : List.Forall₂ rel members others)
    {xs ys : List ResourceId} (found : List.Forall₂ (base.Near world) xs ys) :
    List.Forall₂ rel (xs.filter members.contains) (ys.filter others.contains) := by
  have near : List.Forall₂ (base.Near world) members others :=
    listed.imp fun i j related => .inl (inside i j related)
  have kept : List.Forall₂ (base.Near world) (xs.filter members.contains)
      (ys.filter others.contains) := by
    refine forall₂_filter ?_ found
    intro x y related
    have both : x ∈ members ↔ y ∈ others := List.rel_mem (biUnique_near since) related near
    simp [both]
  apply ((List.forall₂_and_left _ _).mpr ⟨fun x member => member, kept⟩).imp
  rintro x y ⟨member, related⟩
  have listedLeft : x ∈ members := by simpa using (List.mem_filter.mp member).2
  obtain ⟨other, _, also⟩ := exists_mem_of_forall₂ listed listedLeft
  have same := world.biUnique_same.2 (related.same since)
    (lasting_same since (inside x other also))
  rw [same]
  exact also

section
variable {rel : ResourceId → ResourceId → Prop} (inside : ∀ i j, rel i j → base.Same i j)
  {members others : List ResourceId} (listed : List.Forall₂ rel members others)
include inside

theorem biUnique_of_same : Relator.BiUnique rel := by
  constructor
  · intro i k j first second
    exact base.biUnique_same.1 (inside i j first) (inside k j second)
  · intro i j k first second
    exact base.biUnique_same.2 (inside i j first) (inside i k second)

include tree listed

theorem agree_sortEdges (since : base.Later world) (same : base.Same i j) (scope : Scope) :
    Agree world (fun _ => List.Forall₂ rel) (sortEdges members scope i)
      (sortEdges others scope j) := by
  apply agree_bind (agree_aggregated tree since (.inl same) scope true)
  intro later after providers found related
  have reached := since.trans after
  have direct := forall₂_filter_members inside reached listed related.1
  apply agree_node_bind
  rw [← (same.alike_later tree reached).isModule]
  split
  · apply agree_bind (agree_providerModules tree reached same scope)
    intro last onward modules outer both
    have near : List.Forall₂ (base.Near last) modules outer := both.imp fun _ _ => .inl
    have further := forall₂_filter_members inside (reached.trans onward) listed near
    exact agree_pure (forall₂_foldl_addNew (biUnique_of_same inside) further direct)
  · exact agree_pure direct

end

section
variable {registry : Registry} (reached : Reached library registry) {candidates : List ResourceId}
  (known : ∀ id ∈ candidates, id < registry.next library)
include tree reached known

theorem agree_sortEdges_self (since : (World.diagonal reached).Later world) {node : ResourceId}
    (member : node ∈ candidates) (scope : Scope) :
    Agree world (fun _ => List.Forall₂ fun i j => i = j ∧ i ∈ candidates)
      (sortEdges candidates scope node) (sortEdges candidates scope node) := by
  have inside : ∀ i j, i = j ∧ i ∈ candidates → (World.diagonal reached).Same i j := by
    rintro i _ ⟨rfl, listed⟩
    exact World.diagonal_same reached (known i listed)
  have listed : List.Forall₂ (fun i j => i = j ∧ i ∈ candidates) candidates candidates :=
    List.forall₂_same.mpr fun i member => ⟨rfl, member⟩
  exact agree_sortEdges tree inside listed since (inside node node ⟨rfl, member⟩) scope

end

section
variable {rel : ResourceId → ResourceId → Prop} (inside : ∀ i j, rel i j → world.Same i j)
  {candidates others : List ResourceId} (listed : List.Forall₂ rel candidates others)
include tree inside listed

/-- Candidates that correspond are sorted alike. -/
theorem agree_sort (scope : Scope) (strict : Bool) :
    Agree world (fun _ => List.Forall₂ rel) (sort candidates scope strict)
      (sort others scope strict) := by
  apply agree_depth_bind
  have walked : Agree world (SameWalk fun _ => rel)
      (Walk.postOrder (world.left.next library + 1) (sortEdges candidates scope) candidates)
      (Walk.postOrder (world.right.next library + 1) (sortEdges others scope) others) := by
    refine agree_postOrder (fun _ _ _ _ _ related => related)
      (fun _ _ => biUnique_of_same inside) ?_ listed
    intro later after x y related
    apply (agree_sortEdges tree inside listed after (inside x y related) scope).imp
    exact fun _ _ xs ys found => ⟨found, fun _ => (inside x y related).lt_next⟩
  apply agree_bind walked
  intro later after left right same
  have cycles := same.2
  cases strict with
  | false => exact agree_pure same.1
  | true =>
    cases leftCycles : left.cycles with
    | nil =>
      rw [leftCycles] at cycles
      rw [List.forall₂_nil_left_iff.mp cycles]
      exact agree_pure same.1
    | cons cycle rest =>
      rw [leftCycles] at cycles
      obtain ⟨other, more, closed, _, eq⟩ := List.forall₂_cons_left_iff.mp cycles
      rw [eq]
      apply agree_nodes_bind
      have shown : cycle.map (fun id => (library.node later.left id).path.text) =
          other.map fun id => (library.node later.right id).path.text := by
        rw [← List.forall₂_eq_eq_eq]
        refine List.rel_map ?_ closed
        intro x y related
        simp only [((inside x y related).alike_later tree after).path]
      rw [shown]
      exact agree_throw _

end

theorem rel_of_agree_pure {α β : Type} {rel : α → β → Prop} {a : α} {b : β}
    (agree : Agree world (fun _ => rel) (pure a) (pure b)) : rel a b := by
  obtain ⟨_, _, _, _, related⟩ := related_of_agree agree rfl rfl
  exact related

section
include tree

theorem forall₂_modulesBelow (since : base.Later world) (same : base.Same i j) :
    List.Forall₂ base.Same
      (modulesBelow (library.node world.left) (world.left.next library + 1) i)
      (modulesBelow (library.node world.right) (world.right.next library + 1) j) := by
  have below : ∀ x y, base.Same x y → List.Forall₂ base.Same
      (childModules (library.node world.left) (library.node world.left x))
      (childModules (library.node world.right) (library.node world.right y)) := by
    intro x y related
    exact forall₂_childModules tree since (related.alike_later tree since).children
  have walked : Agree world (fun _ => SameWalk (fun _ => base.Same) world)
      (Walk.postOrder (world.left.next library + 1) (fun id =>
        pure (childModules (library.node world.left) (library.node world.left id)))
        (childModules (library.node world.left) (library.node world.left i)))
      (Walk.postOrder (world.right.next library + 1) (fun id =>
        pure (childModules (library.node world.right) (library.node world.right id)))
        (childModules (library.node world.right) (library.node world.right j))) := by
    refine agree_postOrder (fun _ _ _ _ _ related => related) (fun _ _ => base.biUnique_same) ?_
      (below i j same)
    intro later after x y related
    exact agree_pure ⟨below x y related, fun _ => (lasting_same since related).lt_next⟩
  rw [Walk.postOrder_pure, Walk.postOrder_pure] at walked
  exact (rel_of_agree_pure walked).1

theorem agree_allModules (since : base.Later world) (same : base.Same i j) (withSelf : Bool) :
    Agree world (fun _ => List.Forall₂ base.Same) (allModules i withSelf)
      (allModules j withSelf) := by
  refine agree_nodes_bind (agree_depth_bind ?_)
  have below := forall₂_modulesBelow tree since same
  refine agree_sort tree (fun _ _ => lasting_same since) ?_ .test false
  cases withSelf with
  | true => exact forall₂_addNew base.biUnique_same below same
  | false => exact below

end

end Query
end ResourceLibrary
