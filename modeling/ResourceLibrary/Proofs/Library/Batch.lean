import ResourceLibrary.Proofs.Arena.Planting
import ResourceLibrary.Proofs.Text.Coordinates

/-!
The batch of nodes that one coordinate is registered with: a root of its own, the modules of the
group, and the resource. Main statement: a coordinate is registered exactly when it can be read, and
what is added to the registry is its batch.
-/

namespace ResourceLibrary

structure Header.Synthetic (header : Header) : Prop where
  isAnonymous : header.isAnonymous = true
  basedir : header.basedir = none
  dependencies : header.dependencies = []
  segment : ResourcePath.IsSegment header.name

theorem Header.Synthetic.basedir? {header : Header} (synthetic : header.Synthetic) (ground : Ground)
    (above : Node) : header.basedir? ground above = .ok none := by
  have anonymous := synthetic.isAnonymous
  have project : header.isProject = false := by
    simp only [Header.isAnonymous, decide_eq_true_eq] at anonymous
    simp [Header.isProject, anonymous]
  simp [Header.basedir?, synthetic.basedir, project]

def Declaration.chain (outer : List Header) (leaf : Header) : Declaration :=
  outer.foldr (fun header inner => ⟨header, [inner]⟩) ⟨leaf, []⟩

/-- A node with the nodes of a chain of headers below it, the first of which has the number `id`. -/
def line (ground : Ground) (above : Node) : ResourceId → List Header → List Node
  | _, [] => [above]
  | id, header :: rest =>
    above.withChild header.name id :: line ground (header.node ground above id none) (id + 1) rest

namespace Coordinate

def leafHeader (coordinate : Coordinate) (properties : Properties) : Header :=
  (Declaration.anonymous coordinate.scheme coordinate.name coordinate.version coordinate.kind
    properties).header

def headers (coordinate : Coordinate) (properties : Properties) : List Header :=
  coordinate.modules.map coordinate.enclosingHeader ++ [coordinate.leafHeader properties]

def batch (ground : Ground) (base : ResourceId) (coordinate : Coordinate)
    (properties : Properties) : List Node :=
  line ground (.root base ground.properties) (base + 1) (coordinate.headers properties)

theorem declaration_eq_chain (coordinate : Coordinate) (properties : Properties) :
    coordinate.declaration properties =
      .chain (coordinate.modules.map coordinate.enclosingHeader)
        (coordinate.leafHeader properties) := by
  rw [declaration, Declaration.chain, List.foldr_map]
  rfl

@[simp] theorem length_headers (coordinate : Coordinate) (properties : Properties) :
    (coordinate.headers properties).length = coordinate.names.length := by
  simp [headers, names]

theorem getElem?_headers (coordinate : Coordinate) (properties : Properties) :
    (coordinate.headers properties)[coordinate.modules.length]? =
      some (coordinate.leafHeader properties) := by
  simp [headers]

theorem name_headers (coordinate : Coordinate) (properties : Properties) :
    (coordinate.headers properties).map Header.name = coordinate.names := by
  simp [headers, names, Function.comp_def, enclosingHeader, Header.of, leafHeader,
    Declaration.anonymous, Declaration.resource, Declaration.edit]

theorem synthetic_of_mem_headers {coordinate : Coordinate} (placed : coordinate.Placed)
    {properties : Properties} {header : Header} (member : header ∈ coordinate.headers properties) :
    header.Synthetic := by
  have segment : ResourcePath.IsSegment header.name := by
    apply names_isSegment placed _
    rw [← name_headers coordinate properties]
    exact List.mem_map_of_mem member
  rcases List.mem_append.mp member with outer | last
  · obtain ⟨name, _, rfl⟩ := List.mem_map.mp outer
    exact ⟨rfl, rfl, rfl, segment⟩
  · rw [List.mem_singleton.mp last] at segment ⊢
    exact ⟨rfl, rfl, rfl, segment⟩

theorem isModule_of_mem_modules {coordinate : Coordinate} {header : Header}
    (member : header ∈ coordinate.modules.map coordinate.enclosingHeader) :
    header.isModule = true := by
  obtain ⟨name, _, rfl⟩ := List.mem_map.mp member
  rfl

end Coordinate

@[simp] theorem length_line (ground : Ground) (above : Node) (id : ResourceId)
    (headers : List Header) : (line ground above id headers).length = headers.length + 1 := by
  induction headers generalizing above id with
  | nil => rfl
  | cons header rest ih => rw [line, List.length_cons, ih, List.length_cons]

namespace Arena

def Ends (arena : Arena) (front last : List Node) : Prop :=
  arena.nodes.toList = front ++ last

theorem node_of_ends {arena : Arena} {front last : List Node} {node : Node}
    (ends : arena.Ends front (node :: last)) : arena.node (arena.base + front.length) = node := by
  have found : arena.nodes[front.length]? = some node := by
    rw [← Array.getElem?_toList, ends]
    simp
  simp [Arena.node, node?, found]

theorem next_of_ends {arena : Arena} {front last : List Node} (ends : arena.Ends front last) :
    arena.next = arena.base + front.length + last.length := by
  have size := congrArg List.length ends
  rw [Array.length_toList, List.length_append] at size
  rw [next, size, Nat.add_assoc]

theorem push_of_ends {arena : Arena} {front : List Node} {above : Node}
    (ends : arena.Ends front [above]) (name : String) (node : Node) :
    (arena.push (arena.base + front.length) name node).Ends
      (front ++ [above.withChild name node.id]) [node] := by
  have position : arena.base + front.length - arena.base = front.length :=
    Nat.add_sub_cancel_left ..
  rw [Ends, push, position, Array.toList_modify, Array.toList_push, ends]
  have last := List.modifyTailIdx_add (List.modifyHead (·.withChild name node.id)) 0 front
    [above, node]
  simpa [List.modify] using last

/-- A header that no declaration in the arena has met becomes the node behind all others. -/
theorem enter_of_ends (ground : Ground) {arena : Arena} {front : List Node} {above : Node}
    (ends : arena.Ends front [above]) (own : above.id = arena.base + front.length)
    (childless : above.childTable = ∅) {header : Header} (synthetic : header.Synthetic) :
    ∃ grown : Arena, arena.enter ground above.id header = .ok (above.id + 1, grown) ∧
      grown.base = arena.base ∧
      grown.Ends (front ++ [above.withChild header.name (above.id + 1)])
        [header.node ground above (above.id + 1) none] := by
  have next : arena.next = above.id + 1 := by rw [next_of_ends ends, own]; rfl
  have fresh : above.child? header.name = none := by simp [Node.child?, childless]
  have here : arena.node above.id = above := own ▸ node_of_ends ends
  refine ⟨arena.push above.id header.name (header.node ground above (above.id + 1) none), ?_, rfl,
    ?_⟩
  · simp only [enter, here, fresh, synthetic.basedir?, Except.map, next]
  · have pushed := push_of_ends ends header.name (header.node ground above (above.id + 1) none)
    rw [← own] at pushed
    exact pushed

theorem admit_of_synthetic {above : Node} (module : above.isModule = true) {header : Header}
    (synthetic : header.Synthetic) {nested : List Declaration}
    (holds : header.isModule = true ∨ nested = []) :
    Declaration.admit above ⟨header, nested⟩ = .ok () :=
  Declaration.admit_eq_ok_iff.mpr ⟨module, holds, synthetic.segment⟩

theorem add_chain (ground : Ground) {outer : List Header} {leaf : Header}
    (modules : ∀ header ∈ outer, header.isModule = true)
    (synthetic : ∀ header ∈ outer ++ [leaf], header.Synthetic) {arena : Arena} {front : List Node}
    {above : Node} (ends : arena.Ends front [above]) (own : above.id = arena.base + front.length)
    (module : above.isModule = true) (childless : above.childTable = ∅) :
    ∃ grown : Arena, arena.add ground above.id (.chain outer leaf) = .ok (above.id + 1, grown) ∧
      grown.base = arena.base ∧
      grown.Ends front (line ground above (above.id + 1) (outer ++ [leaf])) := by
  have here : arena.node above.id = above := own ▸ node_of_ends ends
  induction outer generalizing arena front above with
  | nil =>
    have last := synthetic leaf (by simp)
    obtain ⟨grown, entered, base, ended⟩ := enter_of_ends ground ends own childless last
    refine ⟨grown, ?_, base, ?_⟩
    · refine add_eq_ok_iff.mpr ⟨?_, grown, entered, by rw [addAll]⟩
      rw [here]
      exact admit_of_synthetic module last (.inr rfl)
    · simpa [Ends, line] using ended
  | cons header rest ih =>
    have first := synthetic header (by simp)
    have isModule := modules header (by simp)
    obtain ⟨entered, done, base, ended⟩ := enter_of_ends ground ends own childless first
    have node := node_of_ends ended
    have position : (header.node ground above (above.id + 1) none).id =
        entered.base + (front ++ [above.withChild header.name (above.id + 1)]).length := by
      rw [base, Header.id_node, own, List.length_append, List.length_singleton, Nat.add_assoc]
    obtain ⟨grown, added, same, last⟩ := ih (fun other member => modules other (by simp [member]))
      (fun other member => synthetic other (List.mem_cons_of_mem _ member)) ended position
      (by simp [Header.node, Node.isModule, isModule])
      (by simp [Header.node, Node.childTable, isModule]) (by rw [position]; exact node)
    refine ⟨grown, ?_, same.trans base, ?_⟩
    · refine add_eq_ok_iff.mpr ⟨?_, entered, done, ?_⟩
      · rw [here]
        exact admit_of_synthetic module first (.inl isModule)
      · exact addAll_cons_eq_ok_iff.mpr ⟨_, grown, added, by rw [addAll]⟩
    · simpa [Ends, line] using last

theorem foldlM_child?_line (ground : Ground) (headers : List Header) {arena : Arena}
    {front : List Node} {above : Node}
    (ends : arena.Ends front (line ground above (above.id + 1) headers))
    (own : above.id = arena.base + front.length)
    (modules : ∀ header ∈ headers.dropLast, header.isModule = true)
    (module : above.isModule = true) :
    (headers.map Header.name).foldlM (fun id name => (arena.node id).child? name) above.id =
      some (above.id + headers.length) := by
  induction headers generalizing front above with
  | nil => rfl
  | cons header rest ih =>
    rw [line] at ends
    have here := node_of_ends ends
    rw [← own] at here
    have further : arena.Ends (front ++ [above.withChild header.name (above.id + 1)])
        (line ground (header.node ground above (above.id + 1) none) (above.id + 1 + 1) rest) := by
      simpa [Ends] using ends
    have position : (header.node ground above (above.id + 1) none).id =
        arena.base + (front ++ [above.withChild header.name (above.id + 1)]).length := by
      rw [Header.id_node, own, List.length_append, List.length_singleton, Nat.add_assoc]
    have step : (arena.node above.id).child? header.name = some (above.id + 1) := by
      rw [here, Node.child?_withChild module]
      simp
    rw [List.map_cons, List.foldlM_cons, step]
    cases rest with
    | nil => rfl
    | cons next more =>
      have isModule := modules header (by simp)
      have rest := ih further position (fun other member => modules other (by simp_all))
        (by simp [Header.node, Node.isModule, isModule])
      rw [Header.id_node] at rest
      apply rest.trans
      simp only [List.length_cons, Option.some.injEq]
      unfold ResourceId at *
      omega

end Arena

theorem getElem?_line (ground : Ground) {headers : List Header} {place : Nat} {header : Header}
    (there : headers[place]? = some header) (above : Node) (id : ResourceId) :
    ∃ outer node, outer.path.segments =
        above.path.segments ++ (headers.take place).map Header.name ∧
      (line ground above id headers)[place + 1]? = some node ∧
      node.childless = header.node ground outer (id + place) none := by
  induction headers generalizing above id place with
  | nil => cases there
  | cons first rest ih =>
    rw [line, List.getElem?_cons_succ]
    cases place with
    | zero =>
      cases there
      refine ⟨above, ?_⟩
      cases rest <;> simp [line]
    | succ place =>
      obtain ⟨outer, node, path, found, made⟩ :=
        ih there (first.node ground above id none) (id + 1)
      refine ⟨outer, node, ?_, found, ?_⟩
      · simpa [Header.node, ResourcePath.child] using path
      · rw [made, Nat.add_assoc, Nat.add_comm 1]

namespace Coordinate
variable {coordinate : Coordinate} (placed : coordinate.Placed) (ground : Ground)
  (base : ResourceId) (properties : Properties)

def arena (coordinate : Coordinate) (ground : Ground) (base : ResourceId)
    (properties : Properties) : Arena :=
  ⟨base, (coordinate.batch ground base properties).toArray⟩

@[simp] theorem length_batch (coordinate : Coordinate) :
    (coordinate.batch ground base properties).length = coordinate.names.length + 1 := by
  simp [batch]

theorem node?_arena_of_le {coordinate : Coordinate} {level : Nat}
    (inside : level ≤ coordinate.names.length) :
    ∃ node, (coordinate.batch ground base properties)[level]? = some node ∧
      (coordinate.arena ground base properties).node? (base + level) = some node := by
  have bound : level < (coordinate.batch ground base properties).length := by
    rw [length_batch]
    omega
  refine ⟨_, List.getElem?_eq_getElem bound, ?_⟩
  simp [arena, Arena.node?]

theorem leaf_batch (coordinate : Coordinate) :
    ∃ leaf, (coordinate.batch ground base properties)[coordinate.names.length]? = some leaf ∧
      leaf.isAnonymous = true ∧ leaf.isModule = false ∧ leaf.path.segments = coordinate.names := by
  obtain ⟨outer, leaf, path, found, made⟩ := getElem?_line ground
    (coordinate.getElem?_headers properties) (.root base ground.properties) (base + 1)
  have group : outer.path.segments = coordinate.modules := by
    rw [path, List.map_take, name_headers]
    simp [names, Node.root, ResourcePath.root]
  refine ⟨leaf, ?_, ?_, ?_, ?_⟩
  · simpa [batch, names] using found
  · rw [Node.isAnonymous, ← Node.header_childless, made]
    rfl
  · rw [← Node.isModule_childless, made]
    rfl
  · rw [← Node.path_childless, made]
    simp only [Header.node, ResourcePath.child, group]
    rfl

theorem find?_batch (coordinate : Coordinate) :
    (coordinate.arena ground base properties).find? base ⟨coordinate.names⟩ =
      some (base + coordinate.names.length) := by
  have ends : (coordinate.arena ground base properties).Ends [] (line ground
      (.root base ground.properties) (base + 1) (coordinate.headers properties)) := rfl
  have found := Arena.foldlM_child?_line ground (coordinate.headers properties) ends rfl
    (fun header member => isModule_of_mem_modules (by simpa [headers] using member)) rfl
  rw [name_headers, length_headers] at found
  exact found

include placed

theorem add_batch :
    (Arena.start ground base).add ground base (coordinate.declaration properties) =
      .ok (base + 1, coordinate.arena ground base properties) := by
  have ends : (Arena.start ground base).Ends [] [.root base ground.properties] := rfl
  have modules : ∀ header ∈ coordinate.modules.map coordinate.enclosingHeader,
      header.isModule = true := fun _ => isModule_of_mem_modules
  have synthetic : ∀ header ∈ coordinate.headers properties, header.Synthetic :=
    fun _ => synthetic_of_mem_headers placed
  obtain ⟨grown, added, same, ended⟩ :=
    Arena.add_chain ground modules synthetic ends rfl rfl rfl
  rw [← declaration_eq_chain] at added
  apply added.trans
  obtain ⟨first, nodes⟩ := grown
  have all : nodes = (coordinate.batch ground base properties).toArray := by
    rw [← Array.toList_inj]
    exact ended
  cases same
  rw [all]
  rfl

theorem isTree_batch : (coordinate.arena ground base properties).IsTree :=
  Arena.isTree_of_add (add_batch placed ground base properties)

end Coordinate

namespace Registry

def next (library : Library) (registry : Registry) : ResourceId :=
  library.frozen.size + registry.nodes.size

def withBatch (library : Library) (registry : Registry) (urn : String) (coordinate : Coordinate)
    (properties : Properties) : Registry :=
  ⟨registry.nodes ++
      (coordinate.batch library.ground (registry.next library) properties).toArray,
    (urn, registry.next library + coordinate.names.length) :: registry.urns⟩

theorem register_of_parse (library : Library) (registry : Registry) {urn : String}
    {coordinate : Coordinate} (read : Coordinate.parse urn = .ok coordinate)
    (properties : Properties) :
    registry.register library urn properties =
      .ok (registry.next library + coordinate.names.length,
        registry.withBatch library urn coordinate properties) := by
  have placed := Coordinate.placed_of_parse read
  have added := Coordinate.add_batch placed library.ground (registry.next library) properties
  have leaf := Coordinate.find?_batch library.ground (registry.next library) properties
    coordinate
  unfold register withBatch
  rw [read]
  refine bind_eq_ok_iff.mpr ⟨coordinate, rfl, ?_⟩
  refine bind_eq_ok_iff.mpr ⟨⟨coordinate.names⟩, Coordinate.parse_path placed, ?_⟩
  refine bind_eq_ok_iff.mpr ⟨_, added, ?_⟩
  simp only [Arena.root, Coordinate.arena] at leaf ⊢
  rw [leaf]

theorem register_of_not_parse (library : Library) (registry : Registry) {urn : String}
    {failure : Failure} (unread : Coordinate.parse urn = .error failure)
    (properties : Properties) : registry.register library urn properties = .error failure := by
  rw [register, unread]
  rfl

end Registry
end ResourceLibrary
