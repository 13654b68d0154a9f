import ResourceLibrary.Proofs.Library.Agreement
import ResourceLibrary.Proofs.Library.Likeness

/-!
Numbers that correspond in two registries: those of one frozen node, and those at one level above
the resource of one coordinate. Main statements: each number corresponds to one at most, and nodes
that correspond are alike, with parents and children that correspond.
-/

namespace ResourceLibrary

theorem Node.exists_child?_of_mem_children {node : Node} {child : ResourceId}
    (member : child ∈ node.children) : ∃ name, node.child? name = some child := by
  obtain ⟨⟨name, other⟩, entry, rfl⟩ := List.mem_map.mp member
  exact ⟨name, (Table.get?_eq_some_iff _ _ _).mpr entry⟩

namespace World
open Registry (Within)
variable {library : Library} {world base later : World library} {i j : ResourceId}

/-- Numbers of the same frozen node, or at one level in the batches of one coordinate. -/
def Same (world : World library) (i j : ResourceId) : Prop :=
  i = j ∧ i < library.frozen.size ∨
    ∃ urn level, Within world.left urn level i ∧ Within world.right urn level j

def Leaf (world : World library) (i j : ResourceId) : Prop :=
  ∃ urn, world.left.urns.lookup urn = some i ∧ world.right.urns.lookup urn = some j

/-- Numbers that corresponded before, or those of the resource of one coordinate. -/
def Near (base world : World library) (i j : ResourceId) : Prop := base.Same i j ∨ world.Leaf i j

theorem same_of_lt (world : World library) (frozen : i < library.frozen.size) : world.Same i i :=
  .inl ⟨rfl, frozen⟩

theorem lasting_same : Lasting fun world : World library => world.Same := by
  intro world later i j since same
  rcases same with frozen | ⟨urn, level, left, right⟩
  · exact .inl frozen
  · exact .inr ⟨urn, level, since.1.within left, since.2.within right⟩

theorem lasting_leaf : Lasting fun world : World library => world.Leaf := by
  intro world later i j since leaf
  obtain ⟨urn, left, right⟩ := leaf
  exact ⟨urn, since.1.lookup left, since.2.lookup right⟩

theorem lasting_near (base : World library) : Lasting (Near base) := by
  intro world later i j since near
  exact near.imp id (lasting_leaf since)

theorem Leaf.within (leaf : world.Leaf i j) :
    ∃ urn, Within world.left urn 0 i ∧ Within world.right urn 0 j := by
  obtain ⟨urn, left, right⟩ := leaf
  obtain ⟨coordinate, _, _, stored⟩ := world.leftReached.stored left
  refine ⟨urn, ?_, ?_⟩
  · exact ⟨coordinate, i, stored.read, left, Nat.zero_le _, rfl⟩
  · exact ⟨coordinate, j, stored.read, right, Nat.zero_le _, rfl⟩

theorem Leaf.same (leaf : world.Leaf i j) : world.Same i j := by
  obtain ⟨urn, left, right⟩ := leaf.within
  exact .inr ⟨urn, 0, left, right⟩

theorem Near.same (since : base.Later world) (near : base.Near world i j) : world.Same i j :=
  near.elim (lasting_same since) Leaf.same

theorem Same.lt_next (same : world.Same i j) :
    i < world.left.next library ∧ j < world.right.next library := by
  rcases same with ⟨rfl, frozen⟩ | ⟨urn, level, left, right⟩
  · exact ⟨Nat.lt_add_right _ frozen, Nat.lt_add_right _ frozen⟩
  · exact ⟨(world.leftReached.bounds left).2, (world.rightReached.bounds right).2⟩

theorem Same.lt_frozen_iff (same : world.Same i j) :
    i < library.frozen.size ↔ j < library.frozen.size := by
  rcases same with ⟨rfl, _⟩ | ⟨urn, level, left, right⟩
  · exact Iff.rfl
  · have low := (world.leftReached.bounds left).1
    have also := (world.rightReached.bounds right).1
    constructor
    · intro frozen
      exact absurd frozen (Nat.not_lt.mpr low)
    · intro frozen
      exact absurd frozen (Nat.not_lt.mpr also)

theorem Same.eq_of_lt (same : world.Same i j) (frozen : i < library.frozen.size) : i = j := by
  rcases same with ⟨rfl, _⟩ | ⟨urn, level, left, _⟩
  · rfl
  · exact absurd frozen (Nat.not_lt.mpr (world.leftReached.bounds left).1)

theorem biUnique_same (world : World library) : Relator.BiUnique world.Same := by
  constructor
  · intro i k j first second
    by_cases frozen : j < library.frozen.size
    · rw [first.eq_of_lt (first.lt_frozen_iff.mpr frozen),
        second.eq_of_lt (second.lt_frozen_iff.mpr frozen)]
    · rcases first with ⟨rfl, inside⟩ | ⟨urn, level, left, right⟩
      · exact absurd inside frozen
      · rcases second with ⟨rfl, inside⟩ | ⟨other, away, before, behind⟩
        · exact absurd inside frozen
        · obtain ⟨rfl, rfl⟩ := world.rightReached.unique right behind
          exact Registry.within_functional left before
  · intro i j k first second
    by_cases frozen : i < library.frozen.size
    · rw [← first.eq_of_lt frozen, ← second.eq_of_lt frozen]
    · rcases first with ⟨rfl, inside⟩ | ⟨urn, level, left, right⟩
      · exact absurd inside frozen
      · rcases second with ⟨rfl, inside⟩ | ⟨other, away, before, behind⟩
        · exact absurd inside frozen
        · obtain ⟨rfl, rfl⟩ := world.leftReached.unique left before
          exact Registry.within_functional right behind

theorem biUnique_near (since : base.Later world) : Relator.BiUnique (base.Near world) := by
  constructor
  · intro i k j first second
    exact world.biUnique_same.1 (first.same since) (second.same since)
  · intro i j k first second
    exact world.biUnique_same.2 (first.same since) (second.same since)

section
variable {registry : Registry} (reached : Registry.Reached library registry)

def diagonal : World library := ⟨registry, registry, reached, reached⟩

theorem diagonal_same {id : ResourceId} (known : id < registry.next library) :
    (diagonal reached).Same id id := by
  by_cases frozen : id < library.frozen.size
  · exact .inl ⟨rfl, frozen⟩
  · obtain ⟨urn, level, inside⟩ := reached.cover (Nat.le_of_not_lt frozen) known
    exact .inr ⟨urn, level, inside, inside⟩

theorem eq_of_diagonal_same (same : (diagonal reached).Same i j) : i = j :=
  (diagonal reached).biUnique_same.2 (diagonal_same reached same.lt_next.1) same

end

section
variable (tree : library.arena.IsTree)
include tree

theorem alike_of_lt (world : World library) (frozen : i < library.frozen.size) :
    (library.node world.left i).Alike world.Same (library.node world.right i) := by
  have here := Library.node?_of_lt frozen world.left
  rw [← Library.node_eq_of_lt frozen world.left world.right]
  constructor
  case id =>
    rw [tree.own here]
    exact world.same_of_lt frozen
  case includes => exact .inl rfl
  case parent =>
    cases up : (library.node world.left i).parent with
    | none => exact .none
    | some above =>
      obtain ⟨outer, there, _⟩ := tree.joined_of_parent here up
      exact .some (world.same_of_lt (Library.lt_of_node? there))
  case children =>
    refine List.forall₂_same.mpr fun child member => ?_
    obtain ⟨name, below⟩ := Node.exists_child?_of_mem_children member
    obtain ⟨inner, there, _⟩ := tree.child here below
    exact world.same_of_lt (Library.lt_of_node? there)
  all_goals rfl

omit tree in
theorem alike_of_within {urn : String} {level : Nat} (left : Within world.left urn level i)
    (right : Within world.right urn level j) :
    (library.node world.left i).Alike world.Same (library.node world.right j) := by
  have ⟨coordinate, leaf, read, found, _, _⟩ := left
  have ⟨_, last, _, also, _, _⟩ := right
  obtain ⟨one, base, given, stored⟩ := world.leftReached.stored found
  obtain ⟨two, other, changed, kept⟩ := world.rightReached.stored also
  have first := stored.read
  rw [read] at first
  cases first
  have second := kept.read
  rw [read] at second
  cases second
  have numbers : ∀ step ≤ coordinate.names.length, world.Same (base + step) (other + step) := by
    intro step within
    obtain ⟨up, total⟩ := Nat.le.dest within
    refine .inr ⟨urn, up, ?_, ?_⟩
    · refine ⟨coordinate, leaf, read, found, ?_, ?_⟩
      · omega
      · rw [stored.leaf, Nat.add_assoc, total]
    · refine ⟨coordinate, last, read, also, ?_, ?_⟩
      · omega
      · rw [kept.leaf, Nat.add_assoc, total]
  have alike := Coordinate.forall₂_batch (Coordinate.placed_of_parse read) library.ground given
    changed numbers
  obtain ⟨step, total, _, leftHere⟩ := stored.place found left
  obtain ⟨place, whole, _, rightHere⟩ := kept.place also right
  have equal : place = step := by omega
  rw [equal] at rightHere
  obtain ⟨leftBound, leftNode⟩ := List.getElem?_eq_some_iff.mp leftHere
  obtain ⟨rightBound, rightNode⟩ := List.getElem?_eq_some_iff.mp rightHere
  rw [← leftNode, ← rightNode]
  exact alike.get leftBound rightBound

theorem Same.alike (same : world.Same i j) :
    (library.node world.left i).Alike world.Same (library.node world.right j) := by
  rcases same with ⟨rfl, frozen⟩ | ⟨urn, level, left, right⟩
  · exact alike_of_lt tree world frozen
  · exact alike_of_within left right

/-- Nodes that once corresponded stay alike, with neighbours that once corresponded. -/
theorem Same.alike_later (since : base.Later world) (same : base.Same i j) :
    (library.node world.left i).Alike base.Same (library.node world.right j) := by
  rw [since.1.node same.lt_next.1, since.2.node same.lt_next.2]
  exact same.alike tree

theorem Near.alike (since : base.Later world) (near : base.Near world i j) :
    (library.node world.left i).Alike world.Same (library.node world.right j) :=
  (near.same since).alike tree

end

theorem Leaf.isAnonymous (leaf : world.Leaf i j) :
    (library.node world.left i).isAnonymous = true ∧
      (library.node world.right j).isAnonymous = true := by
  obtain ⟨urn, left, right⟩ := leaf
  exact ⟨(world.leftReached.leaf left).2.2.1, (world.rightReached.leaf right).2.2.1⟩

theorem Leaf.isPlain (leaf : world.Leaf i j) :
    (library.node world.left i).isModule = false ∧
      (library.node world.right j).isModule = false := by
  obtain ⟨urn, left, right⟩ := leaf
  exact ⟨(world.leftReached.leaf left).2.2.2.1, (world.rightReached.leaf right).2.2.2.1⟩

theorem synthetic_of_within {registry : Registry} (reached : Registry.Reached library registry)
    {urn : String} {level : Nat} (inside : Within registry urn level i) :
    (library.node registry i).Synthetic := by
  have ⟨_, _, _, found, _, _⟩ := inside
  obtain ⟨coordinate, base, properties, stored⟩ := reached.stored found
  obtain ⟨step, _, _, here⟩ := stored.place found inside
  exact Coordinate.synthetic_of_mem_batch (Coordinate.placed_of_parse stored.read)
    (List.mem_of_getElem? here)

theorem Leaf.synthetic (leaf : world.Leaf i j) :
    (library.node world.left i).Synthetic ∧ (library.node world.right j).Synthetic := by
  obtain ⟨urn, left, right⟩ := leaf.within
  exact ⟨synthetic_of_within world.leftReached left, synthetic_of_within world.rightReached right⟩

end World
end ResourceLibrary
