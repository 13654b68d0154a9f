import ResourceLibrary.Library.Export
import ResourceLibrary.Library.Lookup
import ResourceLibrary.Proofs.Arena.Tree

/-!
Ways through the tree of an arena. Main statements: a path belongs to one node; a node lies at or
below another exactly where its path starts with the other's; a reference leads to the node whose
path it completes, and every node is found by its own path.
-/

namespace ResourceLibrary

/-- `inner` leads to `outer` over parents, in any number of steps. -/
def AtOrBelow (nodes : ResourceId → Node) (outer inner : ResourceId) : Prop :=
  Relation.ReflTransGen (fun id above => (nodes id).parent = some above) inner outer

theorem ResourcePath.ext {a b : ResourcePath} (same : a.segments = b.segments) : a = b := by
  cases a
  cases b
  exact congrArg _ same

theorem ResourcePath.child_inj {a b : ResourcePath} {name other : String} :
    a.child name = b.child other ↔ a = b ∧ name = other := by
  constructor
  · intro same
    obtain ⟨outer, last⟩ := List.append_inj' (congrArg ResourcePath.segments same) rfl
    exact ⟨ResourcePath.ext outer, List.singleton_inj.mp last⟩
  · rintro ⟨rfl, rfl⟩
    rfl

namespace Arena.IsTree
variable {arena : Arena} (tree : arena.IsTree)
include tree

theorem path_base {node : Node} (found : arena.node? arena.base = some node) :
    node.path = .root := by
  obtain ⟨top, here, isTop⟩ := tree.top
  rw [here] at found
  cases found
  exact isTop.path

theorem path_eq_root_iff {id : ResourceId} {node : Node} (found : arena.node? id = some node) :
    node.path = .root ↔ id = arena.base := by
  constructor
  · intro atRoot
    by_cases atBase : id = arena.base
    · exact atBase
    · obtain ⟨above, _, joined⟩ := tree.above found atBase
      have path := joined.path
      rw [atRoot] at path
      simp [ResourcePath.root, ResourcePath.child] at path
  · rintro rfl
    exact tree.path_base found

theorem joined_of_parent {id above : ResourceId} {node : Node} (found : arena.node? id = some node)
    (up : node.parent = some above) :
    ∃ outer, arena.node? above = some outer ∧ outer.Joined node := by
  have away : id ≠ arena.base := by
    rintro rfl
    obtain ⟨top, here, isTop⟩ := tree.top
    rw [here] at found
    cases found
    rw [isTop.parent] at up
    cases up
  obtain ⟨outer, there, joined⟩ := tree.above found away
  rw [joined.parent] at up
  cases up
  exact ⟨outer, there, joined⟩

theorem joined_of_child? {id child : ResourceId} {node : Node} {name : String}
    (found : arena.node? id = some node) (inside : node.child? name = some child) :
    ∃ inner, arena.node? child = some inner ∧ node.Joined inner ∧ inner.name = name := by
  obtain ⟨inner, there, up, named⟩ := tree.child found inside
  obtain ⟨outer, here, joined⟩ := tree.joined_of_parent there up
  rw [found] at here
  cases here
  exact ⟨inner, there, joined, named⟩

theorem path_injective {i j : ResourceId} {n m : Node} (hi : arena.node? i = some n)
    (hj : arena.node? j = some m) (same : n.path = m.path) : i = j := by
  induction h : i using Nat.strongRecOn generalizing i j n m with
  | ind k ih =>
    subst h
    by_cases atBase : i = arena.base
    · rw [atBase]
      refine ((tree.path_eq_root_iff hj).mp ?_).symm
      rw [← same]
      exact (tree.path_eq_root_iff hi).mpr atBase
    · have away : j ≠ arena.base := by
        intro other
        refine atBase ((tree.path_eq_root_iff hi).mp ?_)
        rw [same]
        exact (tree.path_eq_root_iff hj).mpr other
      obtain ⟨a, ha, ja⟩ := tree.above hi atBase
      obtain ⟨b, hb, jb⟩ := tree.above hj away
      have paths : a.path.child n.name = b.path.child m.name := by rw [← ja.path, ← jb.path, same]
      obtain ⟨outer, names⟩ := ResourcePath.child_inj.mp paths
      have lower : a.id < i := by
        rw [← tree.own hi]
        exact ja.later
      have one : a.id = b.id := ih a.id lower ha hb outer rfl
      have both : a = b := by
        rw [one, hb] at ha
        exact (Option.some.inj ha).symm
      have child := ja.child
      rw [both, names, jb.child] at child
      rw [← tree.own hi, ← tree.own hj]
      exact (Option.some.inj child).symm

theorem child?_of_path {parent id : ResourceId} {above node : Node} {name : String}
    (outside : arena.node? parent = some above) (inside : arena.node? id = some node)
    (path : node.path = above.path.child name) : above.child? name = some id := by
  have away : id ≠ arena.base := by
    intro atBase
    rw [(tree.path_eq_root_iff inside).mpr atBase] at path
    simp [ResourcePath.root, ResourcePath.child] at path
  obtain ⟨around, there, joined⟩ := tree.above inside away
  rw [joined.path] at path
  obtain ⟨outer, named⟩ := ResourcePath.child_inj.mp path
  have same := tree.path_injective there outside outer
  rw [same, outside, Option.some.injEq] at there
  rw [there, ← named, joined.child, tree.own inside]

theorem isSegment_of_mem_path {id : ResourceId} {node : Node} (found : arena.node? id = some node) :
    ∀ name ∈ node.path.segments, ResourcePath.IsSegment name := by
  induction h : id using Nat.strongRecOn generalizing id node with
  | ind k ih =>
    subst h
    intro name member
    by_cases atBase : id = arena.base
    · rw [(tree.path_eq_root_iff found).mpr atBase] at member
      simp [ResourcePath.root] at member
    · obtain ⟨above, there, joined⟩ := tree.above found atBase
      have lower : above.id < id := by
        rw [← tree.own found]
        exact joined.later
      rw [joined.path, ResourcePath.child, List.mem_append, List.mem_singleton] at member
      rcases member with outer | rfl
      · exact ih above.id lower there rfl name outer
      · exact joined.segment

section
variable {nodes : ResourceId → Node}
  (agree : ∀ {id node}, arena.node? id = some node → nodes id = node)
include agree

theorem prefix_of_atOrBelow {outer inner : ResourceId} {n : Node}
    (found : arena.node? inner = some n) (way : AtOrBelow nodes outer inner) :
    ∃ a, arena.node? outer = some a ∧ a.path.segments <+: n.path.segments := by
  induction way with
  | refl => exact ⟨n, found, List.prefix_rfl⟩
  | tail _ step ih =>
    obtain ⟨b, hb, below⟩ := ih
    rw [agree hb] at step
    obtain ⟨above, ha, joined⟩ := tree.joined_of_parent hb step
    refine ⟨above, ha, List.IsPrefix.trans ?_ below⟩
    rw [joined.path]
    exact List.prefix_append _ _

theorem atOrBelow_of_prefix {outer inner : ResourceId} {a n : Node}
    (ho : arena.node? outer = some a) (hi : arena.node? inner = some n)
    (starts : a.path.segments <+: n.path.segments) : AtOrBelow nodes outer inner := by
  induction h : inner using Nat.strongRecOn generalizing inner n with
  | ind k ih =>
    subst h
    by_cases full : a.path.segments.length = n.path.segments.length
    · have same := ResourcePath.ext (starts.eq_of_length full)
      rw [tree.path_injective ho hi same]
      exact .refl
    · have shorter := starts.length_le
      have away : inner ≠ arena.base := by
        rintro rfl
        have := tree.path_base hi
        rw [this] at full shorter
        simp only [ResourcePath.root, List.length_nil] at full shorter
        omega
      obtain ⟨above, ha, joined⟩ := tree.above hi away
      have lower : above.id < inner := by
        rw [← tree.own hi]
        exact joined.later
      have outerPart : a.path.segments <+: above.path.segments := by
        have path := congrArg ResourcePath.segments joined.path
        rw [ResourcePath.child] at path
        apply List.prefix_of_prefix_length_le starts (path ▸ List.prefix_append _ _)
        rw [path, List.length_append, List.length_singleton] at full shorter
        omega
      have step : (nodes inner).parent = some above.id := by
        rw [agree hi]
        exact joined.parent
      exact .head step (ih above.id lower ha outerPart rfl)

theorem descend_relative {start outer inner : ResourceId} {a n : Node} (reference : String)
    (passed : List String) (ho : arena.node? outer = some a) (hi : arena.node? inner = some n)
    {names : List String} (path : n.path.segments = a.path.segments ++ names) :
    descend nodes start reference passed outer names = .ok inner := by
  induction h : names.length generalizing inner n names with
  | zero =>
    rw [List.length_eq_zero_iff] at h
    subst h
    have same := ResourcePath.ext (by simpa using path)
    rw [descend, tree.path_injective hi ho same]
  | succ k ih =>
    have away : inner ≠ arena.base := by
      rintro rfl
      have := tree.path_base hi
      rw [this] at path
      simp only [ResourcePath.root, List.nil_eq, List.append_eq_nil_iff] at path
      simp [path.2] at h
    obtain ⟨above, ha, joined⟩ := tree.above hi away
    have some : names ≠ [] := by
      rintro rfl
      simp at h
    obtain ⟨front, last, rfl⟩ := (List.eq_nil_or_concat names).resolve_left some
    rw [List.concat_eq_append] at path h ⊢
    have split := congrArg ResourcePath.segments joined.path
    rw [ResourcePath.child, path, ← List.append_assoc] at split
    obtain ⟨outerPart, name⟩ := List.append_inj' split rfl
    have before := ih ha outerPart.symm (by simpa using h)
    have same : last = n.name := by simpa using name
    rw [descend_append, before]
    simp only [Except.bind, descend, agree ha, joined.isModule, Bool.not_true, Bool.false_eq_true,
      ↓reduceIte, same, joined.child]
    rw [tree.own hi]

theorem path_of_descend {start : ResourceId} {reference : String} {names : List String} :
    ∀ {passed : List String} {outer found : ResourceId} {a : Node},
      arena.node? outer = some a →
      descend nodes start reference passed outer names = .ok found →
      ∃ n, arena.node? found = some n ∧ n.path.segments = a.path.segments ++ names := by
  induction names with
  | nil =>
    intro passed outer found a ho done
    rw [descend] at done
    cases done
    exact ⟨a, ho, by simp⟩
  | cons name rest ih =>
    intro passed outer found a ho done
    rw [descend] at done
    split at done
    · cases done
    · split at done
      · cases done
      · next child inside =>
        rw [agree ho] at inside
        obtain ⟨inner, hi, joined, named⟩ := tree.joined_of_child? ho inside
        obtain ⟨n, hn, path⟩ := ih hi done
        refine ⟨n, hn, ?_⟩
        rw [path, joined.path, named, ResourcePath.child, List.append_assoc, List.singleton_append]

theorem atOrBelow_iff_prefix {outer inner : ResourceId} {a n : Node}
    (ho : arena.node? outer = some a) (hi : arena.node? inner = some n) :
    AtOrBelow nodes outer inner ↔ a.path.segments <+: n.path.segments := by
  constructor
  · intro way
    obtain ⟨b, hb, starts⟩ := tree.prefix_of_atOrBelow agree hi way
    rw [ho] at hb
    cases hb
    exact starts
  · exact tree.atOrBelow_of_prefix agree ho hi

theorem any_climb_iff (boundary : ResourceId) (steps : Nat) {id : ResourceId} {node : Node}
    (found : arena.node? id = some node) (depth : node.path.length = steps) :
    (ancestors.climb nodes steps node).any (·.id = boundary) = true ↔
      ∃ above, node.parent = some above ∧ AtOrBelow nodes boundary above := by
  induction steps generalizing id node with
  | zero =>
    have atRoot : node.path = .root := ResourcePath.ext (List.length_eq_zero_iff.mp depth)
    have atBase := (tree.path_eq_root_iff found).mp atRoot
    obtain ⟨top, here, isTop⟩ := tree.top
    rw [atBase, here] at found
    cases found
    simp [ancestors.climb, isTop.parent]
  | succ steps ih =>
    have away : id ≠ arena.base := by
      intro atBase
      have := (tree.path_eq_root_iff found).mpr atBase
      rw [this] at depth
      simp [ResourcePath.root, ResourcePath.length] at depth
    obtain ⟨above, there, joined⟩ := tree.above found away
    have shallower : above.path.length = steps := by
      rw [joined.path] at depth
      simpa [ResourcePath.length, ResourcePath.child] using depth
    have further := ih there shallower
    simp only [ancestors.climb, joined.parent, agree there, List.any_cons, Bool.or_eq_true,
      decide_eq_true_eq, further, Option.some.injEq]
    constructor
    · rintro (same | ⟨up, step, way⟩)
      · exact ⟨above.id, rfl, same ▸ .refl⟩
      · exact ⟨above.id, rfl, .head (by rw [agree there]; exact step) way⟩
    · rintro ⟨_, rfl, way⟩
      rcases Relation.ReflTransGen.cases_head way with same | ⟨up, step, rest⟩
      · exact .inl same
      · rw [agree there] at step
        exact .inr ⟨up, step, rest⟩

theorem liesIn_iff {boundary id : ResourceId} {node : Node} (found : arena.node? id = some node) :
    liesIn nodes boundary node = true ↔ AtOrBelow nodes boundary id := by
  unfold liesIn ancestors
  rw [Bool.or_eq_true, decide_eq_true_eq, tree.any_climb_iff agree boundary _ found rfl,
    tree.own found]
  constructor
  · rintro (rfl | ⟨above, step, way⟩)
    · exact .refl
    · exact .head (by rw [agree found]; exact step) way
  · intro way
    rcases Relation.ReflTransGen.cases_head way with same | ⟨above, step, rest⟩
    · exact .inl same
    · rw [agree found] at step
      exact .inr ⟨above, step, rest⟩

theorem path_of_resolve {start found : ResourceId} {a : Node} {reference : String}
    (here : arena.node? start = some a) (done : resolve nodes start reference = .ok found) :
    ∃ path n, ResourcePath.parse reference = .ok path ∧ arena.node? found = some n ∧
      n.path.segments = a.path.segments ++ path.segments := by
  obtain ⟨path, read, way⟩ := bind_eq_ok_iff.mp done
  obtain ⟨n, there, segments⟩ := tree.path_of_descend agree here way
  exact ⟨path, n, read, there, segments⟩

theorem resolve_relative {start inner : ResourceId} {a n : Node}
    (here : arena.node? start = some a) (there : arena.node? inner = some n) {names : List String}
    (some : names ≠ []) (path : n.path.segments = a.path.segments ++ names) :
    resolve nodes start (ResourcePath.mk names).text = .ok inner := by
  have read : ResourcePath.parse (ResourcePath.mk names).text = .ok ⟨names⟩ := by
    apply ResourcePath.parse_text some
    intro name member
    exact tree.isSegment_of_mem_path there name (by rw [path]; exact List.mem_append_right _ member)
  refine bind_eq_ok_iff.mpr ⟨_, read, ?_⟩
  exact tree.descend_relative agree _ [] here there path

end

end Arena.IsTree
end ResourceLibrary
