import Mathlib.Data.List.Nodup
import ResourceLibrary.Proofs.Library.Correspondence

/-!
The nodes that a registry knows form a forest: the frozen tree, and one small tree for each
coordinate. Main statements: the children of a node are the nodes whose parent it is, each once, and
every node but a root has a declaration.
-/

namespace ResourceLibrary
open Registry (Reached)

/-- A tree among the nodes that a registry knows. -/
structure Grove (library : Library) (registry : Registry) (arena : Arena) : Prop where
  isTree : arena.IsTree
  known : ∀ {id node}, arena.node? id = some node → id < registry.next library
  node : ∀ {id node}, arena.node? id = some node → library.node registry id = node

section
variable {library : Library} {registry : Registry} {id child above : ResourceId}

theorem Library.known_of_ne_absent (there : library.node registry id ≠ .absent) :
    id < registry.next library := by
  refine Nat.lt_of_not_le fun unknown => there ?_
  unfold Registry.next at unknown
  have behind : registry.nodes.size ≤ id - library.frozen.size := by
    unfold ResourceId at *
    omega
  have beyond : ¬id < library.frozen.size := by
    unfold ResourceId at *
    omega
  rw [Library.node, if_neg beyond]
  simp [behind]

theorem Library.known_of_parent (up : (library.node registry id).parent = some above) :
    id < registry.next library := by
  refine Library.known_of_ne_absent fun absent => ?_
  rw [absent] at up
  cases up

theorem Library.known_of_header {header : Header}
    (stated : (library.node registry id).header = some header) : id < registry.next library := by
  refine Library.known_of_ne_absent fun absent => ?_
  rw [absent] at stated
  cases stated

theorem nodup_values {α : Type} (table : Table α) (name : α → String)
    (named : ∀ entry ∈ table.entries, name entry.2 = entry.1) : table.values.Nodup := by
  rw [Table.values, List.Nodup, List.pairwise_map]
  refine table.sorted.imp_of_mem fun {a b} first second less same => ?_
  rw [← named a first, ← named b second, same] at less
  exact absurd less (String.lt_irrefl _)

variable (tree : library.arena.IsTree) (reached : Reached library registry)
include tree reached

theorem exists_grove (known : id < registry.next library) :
    ∃ arena, Grove library registry arena ∧
      arena.node? id = some (library.node registry id) := by
  by_cases frozen : id < library.frozen.size
  · refine ⟨library.arena, ⟨tree, fun found => ?_, fun found => ?_⟩,
      Library.node?_of_lt frozen registry⟩
    · exact Nat.lt_add_right _ (Library.lt_of_node? found)
    · exact Library.node_of_node? found registry
  · obtain ⟨urn, level, inside⟩ := reached.cover (Nat.le_of_not_lt frozen) known
    have ⟨_, leaf, _, found, _, _⟩ := inside
    obtain ⟨coordinate, base, properties, stored⟩ := reached.stored found
    obtain ⟨low, high⟩ := (stored.within_iff found).mp ⟨level, inside⟩
    refine ⟨coordinate.arena library.ground base properties,
      ⟨stored.isTree, fun there => ?_, fun there => ?_⟩, stored.node? low high⟩
    · obtain ⟨_, within⟩ := (stored.within_iff found).mpr (stored.bounds_of_node? there)
      exact (reached.bounds within).2
    · have bounds := stored.bounds_of_node? there
      have also := stored.node? bounds.1 bounds.2
      rw [there] at also
      exact (Option.some.inj also).symm

theorem joined_of_parent (up : (library.node registry id).parent = some above) :
    above < registry.next library ∧
      (library.node registry above).Joined (library.node registry id) := by
  obtain ⟨arena, grove, here⟩ := exists_grove tree reached (Library.known_of_parent up)
  obtain ⟨outer, there, joined⟩ := grove.isTree.joined_of_parent here up
  refine ⟨grove.known there, ?_⟩
  rw [grove.node there]
  exact joined

theorem mem_children_iff (known : id < registry.next library) :
    child ∈ (library.node registry id).children ↔
      (library.node registry child).parent = some id := by
  constructor
  · intro member
    obtain ⟨name, below⟩ := Node.exists_child?_of_mem_children member
    obtain ⟨arena, grove, here⟩ := exists_grove tree reached known
    obtain ⟨inner, there, up, _⟩ := grove.isTree.child here below
    rw [grove.node there]
    exact up
  · intro up
    have joined := (joined_of_parent tree reached up).2
    have place := joined.child
    rw [reached.own tree (Library.known_of_parent up)] at place
    refine List.mem_map.mpr ⟨_, (Table.get?_eq_some_iff _ _ _).mp place, rfl⟩

theorem lt_of_mem_children (known : id < registry.next library)
    (member : child ∈ (library.node registry id).children) :
    id < child ∧ child < registry.next library := by
  have up := (mem_children_iff tree reached known).mp member
  have inside := Library.known_of_parent up
  have later := (joined_of_parent tree reached up).2.later
  rw [reached.own tree known, reached.own tree inside] at later
  exact ⟨later, inside⟩

theorem nodup_children (known : id < registry.next library) :
    (library.node registry id).children.Nodup := by
  refine nodup_values _ (fun child => (library.node registry child).name) fun entry member => ?_
  obtain ⟨arena, grove, here⟩ := exists_grove tree reached known
  have below : (library.node registry id).child? entry.1 = some entry.2 :=
    (Table.get?_eq_some_iff _ _ _).mpr member
  obtain ⟨inner, there, _, named⟩ := grove.isTree.child here below
  simp only [grove.node there, named]

theorem parent_of_isRoot (root : (library.node registry id).isRoot = true) :
    (library.node registry id).parent = none := by
  cases up : (library.node registry id).parent with
  | none => rfl
  | some above =>
    have inner := (joined_of_parent tree reached up).2.inner
    rw [root] at inner
    cases inner

theorem nodup_child_names (known : id < registry.next library) :
    ((library.node registry id).children.map fun child => (library.node registry child).name).Nodup :=
    by
  have place : ∀ child ∈ (library.node registry id).children,
      (library.node registry id).child? (library.node registry child).name = some child := by
    intro child member
    have up := (mem_children_iff tree reached known).mp member
    have joined := (joined_of_parent tree reached up).2
    rw [joined.child, reached.own tree (Library.known_of_parent up)]
  refine List.Nodup.map_on (fun x first y second same => ?_) (nodup_children tree reached known)
  have one := place x first
  rw [same, place y second] at one
  exact (Option.some.inj one).symm

theorem atOrBelow_iff_child {inner : ResourceId} (known : id < registry.next library) :
    AtOrBelow (library.node registry) id inner ↔
      inner = id ∨ ∃ child ∈ (library.node registry id).children,
        AtOrBelow (library.node registry) child inner := by
  constructor
  · intro way
    rcases Relation.ReflTransGen.cases_tail way with same | ⟨child, below, step⟩
    · exact .inl same.symm
    · exact .inr ⟨child, (mem_children_iff tree reached known).mpr step, below⟩
  · rintro (rfl | ⟨child, member, below⟩)
    · exact .refl
    · exact below.tail ((mem_children_iff tree reached known).mp member)

theorem Grove.node?_of_atOrBelow {arena : Arena} (grove : Grove library registry arena)
    {inner : ResourceId} (here : arena.node? id = some (library.node registry id))
    (way : AtOrBelow (library.node registry) id inner) :
    arena.node? inner = some (library.node registry inner) := by
  induction way using Relation.ReflTransGen.head_induction_on with
  | refl => exact here
  | @head child above step _ ih =>
    have member := (mem_children_iff tree reached (grove.known ih)).mpr step
    obtain ⟨name, below⟩ := Node.exists_child?_of_mem_children member
    obtain ⟨node, there, _⟩ := grove.isTree.child ih below
    rw [there, grove.node there]

omit tree reached in
theorem known_of_atOrBelow {inner : ResourceId} (known : id < registry.next library)
    (way : AtOrBelow (library.node registry) id inner) : inner < registry.next library := by
  rcases way.cases_head with rfl | ⟨above, up, _⟩
  · exact known
  · exact Library.known_of_parent up

theorem prefix_of_atOrBelow {inner : ResourceId} (known : id < registry.next library)
    (way : AtOrBelow (library.node registry) id inner) :
    (library.node registry id).path.segments <+: (library.node registry inner).path.segments := by
  obtain ⟨arena, grove, here⟩ := exists_grove tree reached known
  have there := grove.node?_of_atOrBelow tree reached here way
  exact (grove.isTree.atOrBelow_iff_prefix grove.node here there).mp way

theorem eq_of_path_eq {first second : ResourceId} (known : id < registry.next library)
    (one : AtOrBelow (library.node registry) id first)
    (two : AtOrBelow (library.node registry) id second)
    (same : (library.node registry first).path = (library.node registry second).path) :
    first = second := by
  obtain ⟨arena, grove, here⟩ := exists_grove tree reached known
  exact grove.isTree.path_injective (grove.node?_of_atOrBelow tree reached here one)
    (grove.node?_of_atOrBelow tree reached here two) same

theorem atOrBelow_later_iff {outer : ResourceId} {last : Registry} (known : id < registry.next library)
    (grows : Registry.Grows library registry last) :
    AtOrBelow (library.node last) outer id ↔ AtOrBelow (library.node registry) outer id := by
  constructor
  · intro way
    induction way using Relation.ReflTransGen.head_induction_on with
    | refl => exact .refl
    | head step _ ih =>
      rw [grows.node known] at step
      exact .head step (ih (joined_of_parent tree reached step).1)
  · intro way
    induction way using Relation.ReflTransGen.head_induction_on with
    | refl => exact .refl
    | head step _ ih =>
      refine .head ?_ (ih (joined_of_parent tree reached step).1)
      rw [grows.node known]
      exact step

theorem liesIn_iff_atOrBelow {outer : ResourceId} (known : id < registry.next library) :
    liesIn (library.node registry) outer (library.node registry id) = true ↔
      AtOrBelow (library.node registry) outer id := by
  obtain ⟨arena, grove, here⟩ := exists_grove tree reached known
  exact grove.isTree.liesIn_iff grove.node here

theorem exists_parent (known : id < registry.next library)
    (inner : (library.node registry id).isRoot = false) :
    ∃ above, (library.node registry id).parent = some above := by
  obtain ⟨arena, grove, here⟩ := exists_grove tree reached known
  by_cases base : id = arena.base
  · obtain ⟨top, there, isTop⟩ := grove.isTree.top
    rw [base] at here inner
    rw [here] at there
    cases there
    rw [isTop.isRoot] at inner
    cases inner
  · obtain ⟨above, _, joined⟩ := grove.isTree.above here base
    exact ⟨above.id, joined.parent⟩

theorem path_of_isRoot (known : id < registry.next library)
    (isRoot : (library.node registry id).isRoot = true) :
    (library.node registry id).path = .root := by
  obtain ⟨arena, grove, here⟩ := exists_grove tree reached known
  refine (grove.isTree.path_eq_root_iff here).mpr (Decidable.byContradiction fun away => ?_)
  obtain ⟨above, _, joined⟩ := grove.isTree.above here away
  rw [joined.inner] at isRoot
  cases isRoot

theorem lt_frozen_of_named (named : (library.node registry id).isAnonymous = false)
    (up : (library.node registry id).parent = some above) : id < library.frozen.size := by
  refine Nat.lt_of_not_le fun behind => ?_
  obtain ⟨urn, level, inside⟩ := reached.cover behind (Library.known_of_parent up)
  have synthetic := World.synthetic_of_within reached inside
  have root := synthetic.isAnonymous.resolve_right (by simp [named])
  rw [parent_of_isRoot tree reached root] at up
  cases up

end

namespace Arena

/-- What holds of the nodes of an arena and of every node that a header makes, and is not changed by
new children, holds of the nodes of every arena grown from it. -/
theorem forall_of_grown {ground : Ground} {arena grown : Arena} {holds : Node → Prop}
    (steps : Grown ground arena grown) (start : ∀ id node, arena.node? id = some node → holds node)
    (made : ∀ (above : Node) (header : Header) id basedir,
      header.basedir? ground above = .ok basedir → holds (header.node ground above id basedir))
    (kept : ∀ node name child, holds node → holds (node.withChild name child)) :
    ∀ id node, grown.node? id = some node → holds node := by
  induction steps with
  | refl => exact start
  | tail _ step ih =>
    obtain ⟨parent, header, nested, id, admitted, done⟩ := step
    have here := node?_of_isModule (Declaration.admit_eq_ok_iff.mp admitted).1
    rcases enter_cases done with ⟨_, _, _, _, rfl⟩ | ⟨_, _, basedir, given, rfl⟩
    · exact ih
    · intro other node found
      rw [node?_push (Option.isSome_of_eq_some here)] at found
      split at found
      · cases found
        exact made _ _ _ _ given
      · split at found
        · rw [here, Option.map_some] at found
          cases found
          exact kept _ _ _ (ih _ _ here)
        · exact ih _ _ found

def Declared (arena : Arena) : Prop :=
  ∀ id node, arena.node? id = some node → node.isRoot = false → node.header.isSome = true

theorem declared_start (ground : Ground) (base : ResourceId) : (start ground base).Declared := by
  intro id node found inner
  obtain ⟨_, rfl⟩ := node?_start_eq_some_iff.mp found
  cases inner

theorem declared_of_grown {ground : Ground} {arena grown : Arena} (declared : arena.Declared)
    (steps : Grown ground arena grown) : grown.Declared := by
  refine forall_of_grown steps declared (fun _ _ _ _ _ _ => rfl) fun node name child holds inner => ?_
  rw [Node.isRoot_withChild] at inner
  rw [Node.header_withChild]
  exact holds inner

end Arena

namespace Library

theorem declared_of_build {settings : Settings} {host : Host} {load : ImportLoader}
    {catalog : Catalog} {library : Library}
    (built : build settings host load catalog = .ok library) : library.arena.Declared :=
  Arena.declared_of_grown (Arena.declared_start _ _) (grown_of_build built)

theorem header_of_not_isRoot {library : Library} (declared : library.arena.Declared)
    {registry : Registry} (reached : Reached library registry) {id : ResourceId}
    (known : id < registry.next library) (inner : (library.node registry id).isRoot = false) :
    (library.node registry id).header.isSome = true := by
  by_cases frozen : id < library.frozen.size
  · exact declared _ _ (node?_of_lt frozen registry) inner
  · obtain ⟨urn, level, inside⟩ := reached.cover (Nat.le_of_not_lt frozen) known
    have synthetic := World.synthetic_of_within reached inside
    have anonymous := synthetic.isAnonymous.resolve_left (by simp [inner])
    unfold Node.isAnonymous at anonymous
    cases header : (library.node registry id).header with
    | none => simp [header] at anonymous
    | some header => rfl

end Library
end ResourceLibrary
