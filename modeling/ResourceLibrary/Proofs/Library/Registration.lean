import ResourceLibrary.Proofs.Library.Batch
import ResourceLibrary.Proofs.Library.Frozen

/-!
Growth of the registry, one batch at a time. Main statements: the batches divide the numbers that
follow the frozen ones, each number belongs to one coordinate at one level above its resource, and
what a number stands for never changes.
-/

namespace ResourceLibrary.Registry
variable {library : Library} {registry grown : Registry}

inductive Registered (library : Library) (registry : Registry) : Registry → Prop
  | batch {urn : String} {coordinate : Coordinate} (properties : Properties)
    (fresh : registry.urns.lookup urn = none) (read : Coordinate.parse urn = .ok coordinate) :
    Registered library registry (registry.withBatch library urn coordinate properties)

def Grows (library : Library) : Registry → Registry → Prop :=
  Relation.ReflTransGen (Registered library)

def Reached (library : Library) (registry : Registry) : Prop := Grows library .empty registry

/-- The number of a node that stands `level` steps above the resource of a coordinate. -/
def Within (registry : Registry) (urn : String) (level : Nat) (id : ResourceId) : Prop :=
  ∃ coordinate leaf, Coordinate.parse urn = .ok coordinate ∧
    registry.urns.lookup urn = some leaf ∧ level ≤ coordinate.names.length ∧ id + level = leaf

@[simp] theorem next_withBatch (library : Library) (registry : Registry) (urn : String)
    (coordinate : Coordinate) (properties : Properties) :
    (registry.withBatch library urn coordinate properties).next library =
      registry.next library + (coordinate.names.length + 1) := by
  simp [next, withBatch, Coordinate.batch, Nat.add_assoc]

theorem lookup_withBatch (library : Library) (registry : Registry) (urn other : String)
    (coordinate : Coordinate) (properties : Properties) :
    (registry.withBatch library urn coordinate properties).urns.lookup other =
      if other = urn then some (registry.next library + coordinate.names.length)
      else registry.urns.lookup other := by
  rw [withBatch, List.lookup_cons]
  by_cases same : other = urn
  · simp [same]
  · have apart : (other == urn) = false := beq_false_of_ne same
    rw [apart, if_neg same]

theorem within_withBatch {urn : String} {coordinate : Coordinate}
    (fresh : registry.urns.lookup urn = none) (read : Coordinate.parse urn = .ok coordinate)
    (properties : Properties) {other : String} {level : Nat} {id : ResourceId} :
    Within (registry.withBatch library urn coordinate properties) other level id ↔
      Within registry other level id ∨ other = urn ∧ registry.next library ≤ id ∧
        id + level = registry.next library + coordinate.names.length := by
  unfold Within
  simp only [lookup_withBatch]
  constructor
  · rintro ⟨known, leaf, parsed, found, bound, position⟩
    split at found
    · next same =>
      subst same
      rw [read] at parsed
      cases parsed
      cases found
      refine .inr ⟨rfl, ?_, position⟩
      unfold ResourceId at *
      omega
    · exact .inl ⟨known, leaf, parsed, found, bound, position⟩
  · rintro (⟨known, leaf, parsed, found, bound, position⟩ | ⟨rfl, low, position⟩)
    · refine ⟨known, leaf, parsed, ?_, bound, position⟩
      split
      · next same =>
        rw [same, fresh] at found
        cases found
      · exact found
    · refine ⟨coordinate, _, read, if_pos rfl, ?_, position⟩
      unfold ResourceId at *
      omega

theorem not_within_empty {urn : String} {level : Nat} {id : ResourceId} :
    ¬Within .empty urn level id := by
  rintro ⟨_, _, _, found, _⟩
  cases found

theorem Reached.bounds (reached : Reached library registry) {urn : String} {level : Nat}
    {id : ResourceId} (inside : Within registry urn level id) :
    library.frozen.size ≤ id ∧ id < registry.next library := by
  induction reached with
  | refl => exact absurd inside not_within_empty
  | tail _ step ih =>
    obtain ⟨properties, fresh, read⟩ := step
    rw [next_withBatch]
    rcases (within_withBatch fresh read properties).mp inside with old | ⟨rfl, low, position⟩
    · have := ih old
      unfold ResourceId at *
      omega
    · unfold next at *
      unfold ResourceId at *
      omega

theorem Reached.cover (reached : Reached library registry) {id : ResourceId}
    (low : library.frozen.size ≤ id) (high : id < registry.next library) :
    ∃ urn level, Within registry urn level id := by
  induction reached with
  | refl =>
    simp only [next, empty] at high
    unfold ResourceId at *
    simp at high
    omega
  | @tail before after _ step ih =>
    obtain ⟨properties, fresh, read⟩ := step
    rw [next_withBatch] at high
    by_cases old : id < before.next library
    · obtain ⟨urn, level, inside⟩ := ih old
      exact ⟨urn, level, (within_withBatch fresh read properties).mpr (.inl inside)⟩
    · obtain ⟨level, position⟩ := Nat.le.dest (Nat.le_of_lt_succ high)
      have low := Nat.le_of_not_lt old
      exact ⟨_, level, (within_withBatch fresh read properties).mpr (.inr ⟨rfl, low, position⟩)⟩

theorem Reached.unique (reached : Reached library registry) {first second : String}
    {level other : Nat} {id : ResourceId} (inFirst : Within registry first level id)
    (inSecond : Within registry second other id) : first = second ∧ level = other := by
  have urns : first = second := by
    induction reached with
    | refl => exact absurd inFirst not_within_empty
    | tail steps step ih =>
      have before : Reached library _ := steps
      obtain ⟨properties, fresh, read⟩ := step
      rcases (within_withBatch fresh read properties).mp inFirst with old | ⟨rfl, low, _⟩
      · rcases (within_withBatch fresh read properties).mp inSecond with also | ⟨rfl, low, _⟩
        · exact ih old also
        · exact absurd (before.bounds old).2 (Nat.not_lt.mpr low)
      · rcases (within_withBatch fresh read properties).mp inSecond with also | ⟨rfl, _, _⟩
        · exact absurd (before.bounds also).2 (Nat.not_lt.mpr low)
        · rfl
  subst urns
  obtain ⟨_, leaf, _, found, _, position⟩ := inFirst
  obtain ⟨_, last, _, again, _, place⟩ := inSecond
  rw [found] at again
  cases again
  refine ⟨rfl, ?_⟩
  unfold ResourceId at *
  omega

theorem within_functional {urn : String} {level : Nat} {id other : ResourceId}
    (inside : Within registry urn level id) (also : Within registry urn level other) :
    id = other := by
  obtain ⟨_, leaf, _, found, _, position⟩ := inside
  obtain ⟨_, last, _, again, _, place⟩ := also
  rw [found] at again
  cases again
  unfold ResourceId at *
  omega

theorem Registered.next_le (step : Registered library registry grown) :
    registry.next library ≤ grown.next library := by
  obtain ⟨properties, _, _⟩ := step
  rw [next_withBatch]
  exact Nat.le_add_right _ _

theorem Registered.lookup (step : Registered library registry grown) {urn : String}
    {leaf : ResourceId} (found : registry.urns.lookup urn = some leaf) :
    grown.urns.lookup urn = some leaf := by
  obtain ⟨properties, fresh, _⟩ := step
  rw [lookup_withBatch]
  split
  · next same =>
    rw [same, fresh] at found
    cases found
  · exact found

theorem Registered.node (step : Registered library registry grown) {id : ResourceId}
    (known : id < registry.next library) : library.node grown id = library.node registry id := by
  obtain ⟨properties, _, _⟩ := step
  unfold Library.node
  split
  · rfl
  · have inside : id - library.frozen.size < registry.nodes.size := by
      unfold next at known
      unfold ResourceId at *
      omega
    simp [withBatch, Array.getElem?_append, inside]

theorem Grows.next_le (grows : Grows library registry grown) :
    registry.next library ≤ grown.next library := by
  induction grows with
  | refl => exact Nat.le_refl _
  | tail _ step ih => exact Nat.le_trans ih step.next_le

theorem Grows.lookup (grows : Grows library registry grown) {urn : String} {leaf : ResourceId}
    (found : registry.urns.lookup urn = some leaf) : grown.urns.lookup urn = some leaf := by
  induction grows with
  | refl => exact found
  | tail _ step ih => exact step.lookup ih

/-- What a number stands for never changes. -/
theorem Grows.node (grows : Grows library registry grown) {id : ResourceId}
    (known : id < registry.next library) : library.node grown id = library.node registry id := by
  induction grows with
  | refl => rfl
  | tail steps step ih =>
    rw [step.node (Nat.lt_of_lt_of_le known (Grows.next_le steps)), ih]

theorem Grows.within (grows : Grows library registry grown) {urn : String} {level : Nat}
    {id : ResourceId} (inside : Within registry urn level id) : Within grown urn level id := by
  obtain ⟨coordinate, leaf, read, found, bound, position⟩ := inside
  exact ⟨coordinate, leaf, read, grows.lookup found, bound, position⟩

theorem Reached.grows (reached : Reached library registry)
    (grows : Grows library registry grown) : Reached library grown :=
  Relation.ReflTransGen.trans reached grows

/-- The batch of a coordinate as it stands in a registry, from the number `base` on. -/
structure Stored (library : Library) (registry : Registry) (urn : String) (leaf : ResourceId)
    (coordinate : Coordinate) (base : ResourceId) (properties : Properties) : Prop where
  read : Coordinate.parse urn = .ok coordinate
  leaf : leaf = base + coordinate.names.length
  nodes : ∀ level ≤ coordinate.names.length,
    (coordinate.batch library.ground base properties)[level]? =
      some (library.node registry (base + level))

theorem stored_withBatch (library : Library) (registry : Registry) {urn : String}
    {coordinate : Coordinate} (read : Coordinate.parse urn = .ok coordinate)
    (properties : Properties) :
    Stored library (registry.withBatch library urn coordinate properties) urn
      (registry.next library + coordinate.names.length) coordinate (registry.next library)
      properties := by
  refine ⟨read, rfl, ?_⟩
  intro level bound
  have inside : level < (coordinate.batch library.ground (registry.next library)
      properties).length := by
    rw [Coordinate.length_batch]
    omega
  have position : registry.next library + level - library.frozen.size =
      registry.nodes.size + level := by
    unfold next ResourceId at *
    omega
  have behind : ¬registry.next library + level < library.frozen.size := by
    unfold next ResourceId at *
    omega
  rw [Library.node, if_neg behind, position, List.getElem?_eq_getElem inside]
  simp [withBatch, Array.getElem?_append_right, List.getElem?_eq_getElem inside]

theorem Reached.stored (reached : Reached library registry) {urn : String} {leaf : ResourceId}
    (found : registry.urns.lookup urn = some leaf) :
    ∃ coordinate base properties, Stored library registry urn leaf coordinate base properties := by
  induction reached with
  | refl => cases found
  | @tail before after steps step ih =>
    have reached : Reached library before := steps
    have grows : Grows library before after := .single step
    obtain ⟨properties, fresh, read⟩ := step
    rw [lookup_withBatch] at found
    split at found
    · next same =>
      subst same
      cases found
      exact ⟨_, _, _, stored_withBatch library before read properties⟩
    · obtain ⟨coordinate, base, given, stored⟩ := ih found
      refine ⟨coordinate, base, given, stored.read, stored.leaf, ?_⟩
      intro level bound
      rw [stored.nodes level bound, grows.node]
      refine Nat.lt_of_le_of_lt ?_
        (reached.bounds ⟨coordinate, leaf, stored.read, found, Nat.zero_le _, rfl⟩).2
      rw [stored.leaf]
      exact Nat.add_le_add_left bound base

section
variable {urn : String} {leaf base : ResourceId} {coordinate : Coordinate}
  {properties : Properties}
  (stored : Stored library registry urn leaf coordinate base properties)
  (found : registry.urns.lookup urn = some leaf)
include stored

theorem Stored.node? {id : ResourceId} (low : base ≤ id) (high : id ≤ leaf) :
    (coordinate.arena library.ground base properties).node? id =
      some (library.node registry id) := by
  obtain ⟨level, rfl⟩ := Nat.le.dest low
  have bound : level ≤ coordinate.names.length := by
    rw [stored.leaf] at high
    exact Nat.le_of_add_le_add_left high
  obtain ⟨node, here, there⟩ := Coordinate.node?_arena_of_le library.ground base properties bound
  rw [stored.nodes level bound] at here
  rw [there, here]

theorem Stored.bounds_of_node? {id : ResourceId} {node : Node}
    (there : (coordinate.arena library.ground base properties).node? id = some node) :
    base ≤ id ∧ id ≤ leaf := by
  have bounds := Arena.node?_isSome_iff.mp (Option.isSome_of_eq_some there)
  refine ⟨bounds.1, ?_⟩
  have high := bounds.2
  simp only [Coordinate.arena, Arena.next, List.size_toArray, Coordinate.length_batch] at high
  rw [stored.leaf]
  exact Nat.le_of_lt_succ high

theorem Stored.isTree : (coordinate.arena library.ground base properties).IsTree :=
  Coordinate.isTree_batch (Coordinate.placed_of_parse stored.read) library.ground base properties

theorem Stored.leaf_node :
    (library.node registry leaf).isAnonymous = true ∧
      (library.node registry leaf).isModule = false ∧
      (library.node registry leaf).path.segments = coordinate.names := by
  obtain ⟨node, last, isAnonymous, isPlain, path⟩ :=
    Coordinate.leaf_batch library.ground base properties coordinate
  rw [stored.nodes _ (Nat.le_refl _), ← stored.leaf] at last
  cases last
  exact ⟨isAnonymous, isPlain, path⟩

include found

theorem Stored.within_iff {id : ResourceId} :
    (∃ level, Within registry urn level id) ↔ base ≤ id ∧ id ≤ leaf := by
  constructor
  · rintro ⟨level, known, last, read, again, bound, position⟩
    rw [stored.read] at read
    cases read
    rw [found] at again
    cases again
    have := stored.leaf
    unfold ResourceId at *
    omega
  · rintro ⟨low, high⟩
    obtain ⟨level, position⟩ := Nat.le.dest high
    refine ⟨level, coordinate, leaf, stored.read, found, ?_, position⟩
    have := stored.leaf
    unfold ResourceId at *
    omega

theorem Stored.place {level : Nat} {id : ResourceId} (inside : Within registry urn level id) :
    ∃ step, step + level = coordinate.names.length ∧ id = base + step ∧
      (coordinate.batch library.ground base properties)[step]? =
        some (library.node registry id) := by
  obtain ⟨known, last, read, again, bound, position⟩ := inside
  rw [stored.read] at read
  cases read
  rw [found] at again
  cases again
  obtain ⟨step, total⟩ := Nat.le.dest bound
  have place : id = base + step := by
    have := stored.leaf
    unfold ResourceId at *
    omega
  refine ⟨step, by omega, place, ?_⟩
  rw [place]
  exact stored.nodes step (by omega)

end

theorem Reached.links (reached : Reached library registry) {urn : String} {level : Nat}
    {id : ResourceId} (inside : Within registry urn level id) :
    (library.node registry id).id = id ∧
      (∀ above, (library.node registry id).parent = some above →
        ∃ up, Within registry urn up above) ∧
      ∀ name child, (library.node registry id).child? name = some child →
        ∃ down, Within registry urn down child := by
  have ⟨_, leaf, _, found, _, _⟩ := inside
  obtain ⟨coordinate, base, properties, stored⟩ := reached.stored found
  obtain ⟨low, high⟩ := (stored.within_iff found).mp ⟨level, inside⟩
  have here := stored.node? low high
  have tree := stored.isTree
  refine ⟨tree.own here, ?_, ?_⟩
  · intro above up
    obtain ⟨outer, there, _⟩ := tree.joined_of_parent here up
    exact (stored.within_iff found).mpr (stored.bounds_of_node? there)
  · intro name child below
    obtain ⟨inner, there, _⟩ := tree.joined_of_child? here below
    exact (stored.within_iff found).mpr (stored.bounds_of_node? there)

section
variable (reached : Reached library registry)
include reached

theorem Reached.own (tree : library.arena.IsTree) {id : ResourceId}
    (known : id < registry.next library) : (library.node registry id).id = id := by
  by_cases frozen : id < library.frozen.size
  · exact tree.own (Library.node?_of_lt frozen registry)
  · obtain ⟨urn, level, inside⟩ := reached.cover (Nat.le_of_not_lt frozen) known
    exact (reached.links inside).1

theorem Reached.leaf {urn : String} {leaf : ResourceId}
    (found : registry.urns.lookup urn = some leaf) :
    library.frozen.size ≤ leaf ∧ leaf < registry.next library ∧
      (library.node registry leaf).isAnonymous = true ∧
      (library.node registry leaf).isModule = false ∧
      ∃ coordinate, Coordinate.parse urn = .ok coordinate ∧
        ResourcePath.parse coordinate.path = .ok (library.node registry leaf).path := by
  obtain ⟨coordinate, base, properties, stored⟩ := reached.stored found
  have bounds := reached.bounds ⟨coordinate, leaf, stored.read, found, Nat.zero_le _, rfl⟩
  obtain ⟨isAnonymous, isPlain, path⟩ := stored.leaf_node
  refine ⟨bounds.1, bounds.2, isAnonymous, isPlain, coordinate, stored.read, ?_⟩
  rw [Coordinate.parse_path (Coordinate.placed_of_parse stored.read)]
  exact congrArg _ (ResourcePath.ext path.symm)

/-- A resource that was known before its coordinate was asked for is the one that was there for it. -/
theorem Reached.lookup_of_lt {last : Registry} (onward : Grows library registry last) {urn : String}
    {leaf : ResourceId} (found : last.urns.lookup urn = some leaf)
    (known : leaf < registry.next library) : registry.urns.lookup urn = some leaf := by
  have later := reached.grows onward
  obtain ⟨other, level, within⟩ := reached.cover (later.leaf found).1 known
  obtain ⟨coordinate, _, _, stored⟩ := later.stored found
  obtain ⟨rfl, rfl⟩ := later.unique ⟨coordinate, leaf, stored.read, found, Nat.zero_le _, rfl⟩
    (onward.within within)
  obtain ⟨_, first, _, there, _, rfl⟩ := within
  exact there

theorem Reached.lookup_injective {urn other : String} {leaf : ResourceId}
    (found : registry.urns.lookup urn = some leaf)
    (also : registry.urns.lookup other = some leaf) : urn = other := by
  obtain ⟨coordinate, _, _, stored⟩ := reached.stored found
  obtain ⟨known, _, _, kept⟩ := reached.stored also
  exact (reached.unique ⟨coordinate, leaf, stored.read, found, Nat.zero_le _, rfl⟩
    ⟨known, leaf, kept.read, also, Nat.zero_le _, rfl⟩).1

end

end ResourceLibrary.Registry
