import ResourceLibrary.Library.Basic
import ResourceLibrary.Proofs.Arena.Stated

/-!
What nodes take over from the nodes around them. Main statements: a property has the value that the
nearest node on the way to the root sets for it, and a filter the value of the nearest node that
declares it; nodes that stand already keep theirs while an arena grows.
-/

namespace ResourceLibrary

namespace Header

/-- What a node sets for a key by itself: its name, the path around it, its version and its basedir
where it has them, and else what its header declares. -/
def ownProperty? (header : Header) (node : Node) (key : String) : Option String :=
  if key = "basedir" ∧ node.basedir.isSome then node.basedir.map (·.text)
  else if key = "project.version" ∧ node.version.isSome then node.version
  else if key = "project.group" then node.path.parent?.map (·.text)
  else if key = "project.name" then some node.name
  else header.properties.get? key

def filterValue? (header : Header) (token : String) : Option String :=
  (header.filters.reverse.find? fun filter => filter.token = token).map (·.value)

section
variable (ground : Ground) (above : Node) (id : ResourceId) (header : Header)
  (basedir : Option FilePath)

theorem get?_properties_node (key : String) :
    (header.node ground above id basedir).properties.get? key =
      (header.ownProperty? (header.node ground above id basedir) key).or
        (above.properties.get? key) := by
  have group : (header.node ground above id basedir).path.parent? = some above.path := by
    simp [Header.node]
  have version : (header.node ground above id basedir).version = header.version? ground above := rfl
  have dir : (header.node ground above id basedir).basedir = basedir := rfl
  rw [ownProperty?, group, version, dir, name_node]
  simp only [Header.node, inherited]
  cases header.version? ground above <;> cases basedir <;>
    simp only [Option.elim_none, Option.elim_some, Table.get?_insert, Table.get?_overlay] <;> grind

theorem get?_filters_node (token : String) :
    (header.node ground above id basedir).filters.get? token = header.filterValue? token := by
  have last : ∀ filters : List Filter,
      (filters.map fun filter => (filter.token, filter.value)).lookup token =
        (filters.find? fun filter => filter.token = token).map (·.value) := by
    intro filters
    induction filters with
    | nil => rfl
    | cons filter rest ih =>
      rw [List.map_cons, Table.lookup_cons_eq, List.find?_cons, ih]
      by_cases own : filter.token = token
      · simp [own]
      · simp [own, Ne.symm own]
  rw [Header.node, Table.get?_ofList, ← List.map_reverse, last, filterValue?]

theorem version?_eq_none_iff :
    header.version? ground above = none ↔ header.isAnonymous = true ∧ header.version = none := by
  rw [version?, statutoryVersion?]
  cases header.isAnonymous <;> simp

end
end Header

theorem ancestors_eq_cons {nodes : ResourceId → Node} {above node : Node}
    (joined : above.Joined node) (agree : nodes above.id = above) :
    ancestors nodes node = above :: ancestors nodes above := by
  have depth : node.path.length = above.path.length + 1 := by
    rw [joined.path]
    simp [ResourcePath.length, ResourcePath.child]
  rw [ancestors, depth, ancestors.climb, joined.parent]
  simp only [agree]
  rfl

theorem ancestors_eq_nil {node : Node} (nodes : ResourceId → Node) (atRoot : node.path = .root) :
    ancestors nodes node = [] := by
  rw [ancestors, atRoot]
  rfl

namespace Arena.IsTree
variable {ground : Ground} {arena : Arena} (tree : arena.IsTree)
include tree

theorem made_of_joined (made : arena.layout.Made ground) {id : ResourceId} {above node : Node}
    (found : arena.node? id = some node) (there : arena.node? above.id = some above)
    (joined : above.Joined node) :
    ∃ header basedir, node.header = some header ∧
      node.unnumbered = (header.node ground above 0 basedir).unnumbered := by
  have stands := tree.layout_of_node? found
  rw [joined.path] at stands
  obtain ⟨around, header, basedir, here, _, _, same⟩ := made _ _ _ stands
  rw [tree.layout_of_node? there, Option.some.injEq] at here
  subst here
  rw [Header.node_unnumbered ground above header 0] at same
  refine ⟨header, basedir, ?_, same⟩
  rw [← Node.header_unnumbered, same, Node.header_unnumbered]
  rfl

section
variable {nodes : ResourceId → Node}
  (agree : ∀ {id node}, arena.node? id = some node → nodes id = node)
include agree

omit tree in
theorem filtersOf_of_joined {above node : Node} (there : arena.node? above.id = some above)
    (joined : above.Joined node) :
    filtersOf nodes node = (filtersOf nodes above).overlay node.filters := by
  rw [filtersOf, ancestors_eq_cons joined (agree there)]
  rfl

/-- A value that each node either gives itself or takes over from the node above it is the one of
the nearest node that gives one. -/
theorem eq_nearest (value : Node → Option String) {own : Node → Option String} {last : Option String}
    (top : value (nodes arena.base) = (own (nodes arena.base)).or last)
    (step : ∀ {id above node}, arena.node? id = some node → arena.node? above.id = some above →
      above.Joined node → value node = (own node).or (value above))
    {id : ResourceId} {node : Node} (found : arena.node? id = some node) :
    value node = ((node :: ancestors nodes node).findSome? own).or last := by
  induction h : id using Nat.strongRecOn generalizing id node with
  | ind k ih =>
    subst h
    by_cases atBase : id = arena.base
    · subst atBase
      rw [agree found] at top
      rw [ancestors_eq_nil nodes (tree.path_base found), List.findSome?_singleton, top]
    · obtain ⟨above, there, joined⟩ := tree.above found atBase
      have lower : above.id < id := by
        rw [← tree.own found]
        exact joined.later
      rw [step found there joined, ih above.id lower there rfl,
        ancestors_eq_cons joined (agree there), ← Option.or_assoc]
      congr 1
      cases given : own node <;> simp [List.findSome?_cons, given]

section
variable (made : arena.layout.Made ground) {first : ResourcePath → Option Header}
  (stated : ∀ {id node}, arena.node? id = some node → node.header = first node.path)
include made stated

omit agree made in
theorem first_root : first .root = none := by
  obtain ⟨root, here, isTop⟩ := tree.top
  rw [← isTop.path, ← stated here, isTop.header]

theorem get?_properties_eq_nearest (key : String) {id : ResourceId} {node : Node}
    (found : arena.node? id = some node) :
    node.properties.get? key =
      ((node :: ancestors nodes node).findSome? fun near =>
        (first near.path).bind (·.ownProperty? near key)).or
          ((nodes arena.base).properties.get? key) := by
  apply tree.eq_nearest agree (fun near => near.properties.get? key) ?_ ?_ found
  · obtain ⟨root, here, isTop⟩ := tree.top
    rw [agree here, isTop.path, tree.first_root stated]
    rfl
  · intro id above node found there joined
    obtain ⟨header, basedir, declared, same⟩ := tree.made_of_joined made found there joined
    have properties := congrArg Node.properties same
    have version := congrArg Node.version same
    have dir := congrArg Node.basedir same
    have path := congrArg Node.path same
    simp only [Node.properties_unnumbered, Node.version_unnumbered, Node.basedir_unnumbered,
      Node.path_unnumbered] at properties version dir path
    rw [properties, Header.get?_properties_node, ← stated found, declared, Option.bind_some]
    simp only [Header.ownProperty?, Node.name, version, dir, path]

theorem get?_filtersOf_eq_nearest (start : (nodes arena.base).filters = ∅) (token : String)
    {id : ResourceId} {node : Node} (found : arena.node? id = some node) :
    (filtersOf nodes node).get? token =
      (node :: ancestors nodes node).findSome? fun near =>
        (first near.path).bind (·.filterValue? token) := by
  rw [← @Option.or_none _ (List.findSome? ..)]
  apply tree.eq_nearest agree (fun near => (filtersOf nodes near).get? token) ?_ ?_ found
  · obtain ⟨root, here, isTop⟩ := tree.top
    rw [filtersOf, agree here, ancestors_eq_nil nodes isTop.path, ← agree here, start, agree here,
      isTop.path, tree.first_root stated]
    rfl
  · intro id above node found there joined
    obtain ⟨header, basedir, declared, same⟩ := tree.made_of_joined made found there joined
    have filters := congrArg Node.filters same
    rw [Node.filters_unnumbered, Node.filters_unnumbered] at filters
    rw [filtersOf_of_joined agree there joined, Table.get?_overlay, filters,
      Header.get?_filters_node, ← stated found, declared, Option.bind_some]

end
end

theorem layout_of_grown {grown : Arena} (steps : Grown ground arena grown) {path : ResourcePath}
    {place : Node} (stands : arena.layout path = some place) : grown.layout path = some place := by
  obtain ⟨id, node, found, rfl, rfl⟩ := tree.layout_eq_some_iff.mp stands
  obtain ⟨kept, there, alike⟩ := tree.node?_of_grown steps found
  exact (tree.grown steps).layout_eq_some_iff.mpr
    ⟨id, kept, there, Node.eq_of_childless Node.path_childless alike, Node.unnumbered_of_childless alike⟩

theorem filtersOf_of_filters {other : Arena} (grove : other.IsTree) {nodes twins : ResourceId → Node}
    (agree : ∀ {id node}, arena.node? id = some node → nodes id = node)
    (known : ∀ {id node}, other.node? id = some node → twins id = node) {id twin : ResourceId}
    {node copy : Node} (found : arena.node? id = some node) (also : other.node? twin = some copy)
    (path : copy.path = node.path)
    (same : ∀ {i j n m}, arena.node? i = some n → other.node? j = some m → m.path = n.path →
      n.path.segments <+: node.path.segments → m.filters = n.filters) :
    filtersOf twins copy = filtersOf nodes node := by
  induction h : id using Nat.strongRecOn generalizing id twin node copy with
  | ind k ih =>
    subst h
    have filters := same found also path List.prefix_rfl
    by_cases atBase : id = arena.base
    · have atRoot := (tree.path_eq_root_iff found).mpr atBase
      rw [filtersOf, filtersOf, ancestors_eq_nil _ (path.trans atRoot), ancestors_eq_nil _ atRoot,
        filters]
    · obtain ⟨above, outside, joined⟩ := tree.above found atBase
      have lower : above.id < id := by
        rw [← tree.own found]
        exact joined.later
      have inside : twin ≠ other.base := by
        intro atTop
        have atRoot := (grove.path_eq_root_iff also).mpr atTop
        exact atBase ((tree.path_eq_root_iff found).mp (path ▸ atRoot))
      obtain ⟨around, beyond, beside⟩ := grove.above also inside
      -- The nodes above have one path again, so the hypothesis is about them.
      have parents : around.path = above.path := by
        rw [joined.path, beside.path] at path
        exact (ResourcePath.child_inj.mp path).1
      rw [filtersOf_of_joined known beyond beside, filtersOf_of_joined agree outside joined,
        filters, ih above.id lower outside beyond parents (fun one two paths starts => ?_) rfl]
      refine same one two paths (starts.trans ?_)
      rw [joined.path]
      exact List.prefix_append _ _

theorem filtersOf_of_layout {other : Arena} (grove : other.IsTree)
    (kept : ∀ {path place}, arena.layout path = some place → other.layout path = some place)
    {nodes twins : ResourceId → Node}
    (agree : ∀ {id node}, arena.node? id = some node → nodes id = node)
    (known : ∀ {id node}, other.node? id = some node → twins id = node) {id twin : ResourceId}
    {node copy : Node} (found : arena.node? id = some node) (also : other.node? twin = some copy)
    (path : copy.path = node.path) : filtersOf twins copy = filtersOf nodes node := by
  refine tree.filtersOf_of_filters grove agree known found also path fun one two paths _ => ?_
  have shown := kept (tree.layout_of_node? one)
  rw [← paths, grove.layout_of_node? two] at shown
  rw [← Node.filters_unnumbered, Option.some.inj shown, Node.filters_unnumbered]

end Arena.IsTree
end ResourceLibrary
