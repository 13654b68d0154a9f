import Mathlib.Data.List.Infix
import ResourceLibrary.Proofs.Arena.Inheritance
import ResourceLibrary.Proofs.Library.Searching

/-!
Resources that are known by a coordinate alone. Main statement: a coordinate that can be read, and
no other text, gives a resource at its path with the coordinate as its only product; the modules
around it are those of the group; and no search ever finds any of them.
-/

namespace ResourceLibrary
open Registry (Grows Reached Stored)

namespace Coordinate

theorem text_modules {coordinate : Coordinate} (placed : coordinate.Placed) :
    (⟨coordinate.modules⟩ : ResourcePath).text = coordinate.group := by
  rw [← String.toList_inj, ResourcePath.text, Text.toList_intercalate, modules_eq_split placed,
    Text.split, List.map_map]
  simp [Function.comp_def, Text.joined_fields]

theorem ofParts_of_parse {urn : String} {coordinate : Coordinate}
    (read : parse urn = .ok coordinate) :
    ofParts coordinate.scheme coordinate.kind coordinate.group coordinate.name coordinate.version =
      coordinate := by
  obtain ⟨parts, _, _, _, rfl⟩ := parse_eq_ok_iff.mp read
  simp [Parts.coordinate, ofParts]

theorem version_of_mem_headers {coordinate : Coordinate} {properties : Properties}
    {header : Header} (member : header ∈ coordinate.headers properties) :
    header.isAnonymous = true ∧ header.version = coordinate.version := by
  rcases List.mem_append.mp member with outer | last
  · obtain ⟨name, _, rfl⟩ := List.mem_map.mp outer
    exact ⟨rfl, rfl⟩
  · rw [List.mem_singleton.mp last]
    exact ⟨rfl, rfl⟩

end Coordinate

theorem Header.version?_of_anonymous {header : Header} (anonymous : header.isAnonymous = true)
    (ground : Ground) (above : Node) : header.version? ground above = header.version := by
  simp [Header.version?, Header.statutoryVersion?, anonymous]

namespace Arena.IsTree
variable {arena : Arena} (tree : arena.IsTree) {nodes : ResourceId → Node}
  (agree : ∀ {id node}, arena.node? id = some node → nodes id = node)
include tree agree

theorem around {id : ResourceId} {node : Node} (found : arena.node? id = some node) :
    (node :: ancestors nodes node).map (·.path.segments) = node.path.segments.inits.reverse ∧
      ∀ above ∈ ancestors nodes node,
        arena.node? above.id = some above ∧ above.isModule = true := by
  induction h : id using Nat.strongRecOn generalizing id node with
  | ind k ih =>
    subst h
    by_cases atBase : id = arena.base
    · have atRoot := (tree.path_eq_root_iff found).mpr atBase
      rw [ancestors_eq_nil nodes atRoot, List.map_singleton, atRoot]
      exact ⟨by simp [ResourcePath.root], by simp⟩
    · obtain ⟨above, there, joined⟩ := tree.above found atBase
      have lower : above.id < id := by
        rw [← tree.own found]
        exact joined.later
      obtain ⟨paths, modules⟩ := ih above.id lower there rfl
      rw [ancestors_eq_cons joined (agree there)]
      constructor
      · rw [List.map_cons, paths, joined.path, ResourcePath.child]
        simp
      · exact List.forall_mem_cons.mpr ⟨⟨there, joined.isModule⟩, modules⟩

end Arena.IsTree

structure Coordinate.StandsFor (nodes : ResourceId → Node) (coordinate : Coordinate) (node : Node) :
    Prop where
  path : node.path.segments = Text.split '/' coordinate.group ++ [coordinate.name]
  version : node.version = coordinate.version
  basedir : node.basedir = none
  product : ∃ product, node.deliverables = [product] ∧ product.coordinate = coordinate
  around : (ancestors nodes node).map (·.path.segments) =
    (Text.split '/' coordinate.group).inits.reverse
  modules : ∀ above ∈ ancestors nodes node, above.path ≠ .root →
    above.isModule = true ∧ above.isAnonymous = true ∧ above.version = coordinate.version

namespace Registry.Stored
variable {library : Library} {registry : Registry} {urn : String} {leaf base : ResourceId}
  {coordinate : Coordinate} {properties : Properties}
  (stored : Stored library registry urn leaf coordinate base properties)
include stored

theorem made_of_header {place : Nat} {header : Header}
    (there : (coordinate.headers properties)[place]? = some header) :
    ∃ outer, outer.path.segments = coordinate.names.take place ∧
      (library.node registry (base + (place + 1))).childless =
        header.node library.ground outer (base + 1 + place) none := by
  obtain ⟨outer, node, path, found, made⟩ := getElem?_line library.ground there
    (.root base library.ground.properties) (base + 1)
  have inside : place < coordinate.names.length := by
    rw [← coordinate.length_headers properties]
    exact (List.getElem?_eq_some_iff.mp there).1
  have same := stored.nodes (place + 1) inside
  rw [Coordinate.batch, found, Option.some.injEq] at same
  refine ⟨outer, ?_, same ▸ made⟩
  rw [path, List.map_take, Coordinate.name_headers]
  rfl

theorem node_of_node? {id : ResourceId} {node : Node}
    (found : (coordinate.arena library.ground base properties).node? id = some node) :
    library.node registry id = node := by
  obtain ⟨low, high⟩ := stored.bounds_of_node? found
  exact Option.some.inj ((stored.node? low high).symm.trans found)

theorem node?_leaf : (coordinate.arena library.ground base properties).node? leaf =
    some (library.node registry leaf) :=
  stored.node? (stored.leaf ▸ Nat.le_add_right ..) (Nat.le_refl leaf)

/-- All nodes of a batch but its root are anonymous and have the version of the coordinate. -/
theorem anonymous_of_node? {id : ResourceId} {node : Node}
    (found : (coordinate.arena library.ground base properties).node? id = some node)
    (inner : node.path ≠ .root) :
    node.isAnonymous = true ∧ node.version = coordinate.version := by
  obtain ⟨low, high⟩ := stored.bounds_of_node? found
  have away : base ≠ id := fun same => inner ((stored.isTree.path_eq_root_iff found).mpr same.symm)
  obtain ⟨place, rfl⟩ := Nat.exists_eq_add_of_lt (Nat.lt_of_le_of_ne low away)
  have inside : place < (coordinate.headers properties).length := by
    rw [stored.leaf] at high
    rw [coordinate.length_headers]
    exact Nat.lt_of_add_lt_add_left high
  obtain ⟨anonymous, version⟩ :=
    Coordinate.version_of_mem_headers (List.getElem_mem inside)
  obtain ⟨outer, _, made⟩ := stored.made_of_header (List.getElem?_eq_getElem inside)
  have same : library.node registry (base + (place + 1)) = node := stored.node_of_node? found
  rw [same] at made
  rw [Node.isAnonymous, ← Node.header_childless, ← Node.version_childless, made]
  exact ⟨anonymous, (Header.version?_of_anonymous anonymous ..).trans version⟩

theorem standsFor :
    coordinate.StandsFor (library.node registry) (library.node registry leaf) := by
  have placed := Coordinate.placed_of_parse stored.read
  obtain ⟨outer, path, made⟩ := stored.made_of_header (coordinate.getElem?_headers properties)
  have number : base + (coordinate.modules.length + 1) = leaf := by
    rw [stored.leaf]
    simp [Coordinate.names]
  have group : outer.path.segments = coordinate.modules := by
    rw [path]
    simp [Coordinate.names]
  rw [number] at made
  have version : (coordinate.leafHeader properties).version? library.ground outer =
      coordinate.version := Header.version?_of_anonymous rfl ..
  obtain ⟨paths, inside⟩ := stored.isTree.around stored.node_of_node? stored.node?_leaf
  constructor
  · rw [← Node.path_childless, made]
    simp [Header.node, ResourcePath.child, group, Coordinate.modules_eq_split placed]
    rfl
  · rw [← Node.version_childless, made]
    exact version
  · rw [← Node.basedir_childless, made]
    rfl
  · rw [← Node.deliverables_childless, made]
    refine ⟨_, rfl, ?_⟩
    have parts := Coordinate.ofParts_of_parse stored.read
    rw [← Coordinate.text_modules placed, ← group, ← version] at parts
    exact parts
  · rw [List.map_cons, stored.leaf_node.2.2, Coordinate.names,
      Coordinate.modules_eq_split placed] at paths
    simpa using paths
  · intro above member inner
    obtain ⟨there, isModule⟩ := inside above member
    exact ⟨isModule, stored.anonymous_of_node? there inner⟩

theorem frozen_le (reached : Reached library registry)
    (found : registry.urns.lookup urn = some leaf) :
    ∀ node ∈ library.node registry leaf ::
        ancestors (library.node registry) (library.node registry leaf),
      library.frozen.size ≤ node.id := by
  obtain ⟨_, inside⟩ := stored.isTree.around stored.node_of_node? stored.node?_leaf
  have behind : ∀ {node}, (coordinate.arena library.ground base properties).node? node.id =
      some node → library.frozen.size ≤ node.id := by
    intro node there
    obtain ⟨level, within⟩ := (stored.within_iff found).mpr (stored.bounds_of_node? there)
    exact (reached.bounds within).1
  refine List.forall_mem_cons.mpr ⟨behind ?_, fun above member => behind (inside above member).1⟩
  rw [stored.isTree.own stored.node?_leaf]
  exact stored.node?_leaf

end Registry.Stored

namespace Library

/-- A coordinate that can be read, and no other text, stands for a resource. What it stands for and
the modules around that are as the coordinate says, for good, and no search ever finds them. -/
theorem resource_of_coordinate {settings : Settings} {host : Host} {load : ImportLoader}
    {catalog : Catalog} {library : Library}
    (built : build settings host load catalog = .ok library) (session : List Request)
    (urn : String) (properties : Properties) :
    ((∃ id grown, (Query.anonymous urn properties).answer library (library.after session) =
        (.ok id, grown)) ↔ ∃ coordinate, Coordinate.parse urn = .ok coordinate) ∧
    ∀ coordinate id grown, Coordinate.parse urn = .ok coordinate →
      (Query.anonymous urn properties).answer library (library.after session) = (.ok id, grown) →
      ∀ more, let nodes := library.node (library.afterFrom grown more)
        coordinate.StandsFor nodes (nodes id) ∧
        ∀ other (request : Request) answer last, request.Searches library →
          request.perform.answer library (library.after other) = (.ok answer, last) →
          ∀ node ∈ nodes id :: ancestors nodes (nodes id), node.id ∉ answer.ids := by
  have tree := isTree_of_build built
  have reached := library.reached_after session
  constructor
  · cases read : Coordinate.parse urn with
    | ok coordinate =>
      obtain ⟨id, grown, given, _⟩ :=
        Query.answer_anonymous_of_parse library (library.after session) read properties
      exact iff_of_true ⟨id, grown, given⟩ ⟨coordinate, rfl⟩
    | error failure =>
      rw [Query.answer_anonymous_of_not_parse reached read properties]
      simp
  · intro coordinate id grown read given more
    have begun := reached.grows ((Query.growing_anonymous urn properties).grows given)
    have kept : grown.urns.lookup urn = some id := by
      obtain ⟨leaf, after, asked, found⟩ :=
        Query.answer_anonymous_of_parse library (library.after session) read properties
      cases given.symm.trans asked
      exact found
    have onward := library.grows_afterFrom grown more
    have later := begun.grows onward
    obtain ⟨known, base, _, stored⟩ := later.stored (onward.lookup kept)
    cases read.symm.trans stored.read
    refine ⟨stored.standsFor, fun other request answer last searches asked node member named => ?_⟩
    have frozen := Request.lt_frozen_of_searches tree (library.reached_after other) searches asked
    exact absurd (stored.frozen_le later (onward.lookup kept) node member)
      (Nat.not_le.mpr (frozen _ named))

theorem resource_of_coordinate_tiny :
    let editor : Coordinate := ⟨"artifact", "jar", "tools", "editor", some "1"⟩
    ∃ library id grown, build (.ofRoot ⟨"/"⟩) "now" .none tiny = .ok library ∧
      (Query.anonymous "artifact:jar:tools/editor#1" ∅).answer library (library.after []) =
        (.ok id, grown) ∧
      editor.StandsFor (library.node grown) (library.node grown id) ∧
      resolve (library.node grown) root "tools/editor" = .ok 2 ∧
      (library.node grown id).id ≠ 2 := by
  intro editor
  obtain ⟨library, built, size, path⟩ : ∃ library,
      build (.ofRoot ⟨"/"⟩) "now" .none tiny = .ok library ∧ library.frozen.size = 3 ∧
      (library.node .empty 2).path = ⟨["tools", "editor"]⟩ := ⟨_, rfl, rfl, rfl⟩
  have inside : 2 < library.frozen.size := size ▸ (by decide : 2 < 3)
  have found : ∀ registry, resolve (library.node registry) root "tools/editor" = .ok 2 := by
    intro registry
    have text := resolve_path (isTree_of_build built) registry inside (by decide)
    rwa [node_eq_of_lt inside registry .empty, path] at text
  have read : Coordinate.parse "artifact:jar:tools/editor#1" = .ok editor := by cbv
  obtain ⟨succeeds, stands⟩ := resource_of_coordinate built [] "artifact:jar:tools/editor#1" ∅
  obtain ⟨id, grown, given⟩ := succeeds.mpr ⟨editor, read⟩
  obtain ⟨like, unseen⟩ := stands editor id grown read given []
  have asked := Query.answer_lookup root "tools/editor" library .empty
  rw [found] at asked
  have answered : (Request.resource root "tools/editor").perform.answer library (library.after []) =
      (.ok (.resource 2), .empty) := Query.answer_bind_eq_ok_iff.mpr ⟨2, .empty, asked, rfl⟩
  have away := unseen [] (.resource root "tools/editor") _ _
    (size_pos_of_isTree (isTree_of_build built)) answered _ List.mem_cons_self
  exact ⟨library, id, grown, built, given, like, found grown, fun same =>
    away (List.mem_singleton.mpr same)⟩

end Library
end ResourceLibrary
