import ResourceLibrary.Proofs.Arena.Inheritance
import ResourceLibrary.Proofs.Library.Frozen

/-!
What the resources of a library take over from the modules around them. Main statement: versions,
properties and filters follow from what is declared first for the paths on the way to the root, the
nearest one before the others.
-/

namespace ResourceLibrary.Library

/-- What stands in a library at each path follows from its declarations, path by path. -/
theorem layout_build (settings : Settings) (host : Host) (load : ImportLoader)
    (catalog : Catalog) :
    (build settings host load catalog).map (·.arena.layout) =
      catalog.imports.mapM (·.load load) >>= fun imported =>
        (Arena.start (.of settings host catalog.properties) root).layout.addAll
          (.of settings host catalog.properties) .root (imported ++ catalog.resources) := by
  rw [build]
  cases catalog.imports.mapM (·.load load) with
  | error failure => rfl
  | ok imported =>
    generalize Ground.of settings host catalog.properties = ground
    have shown := Arena.layout_addAll ground (Arena.isTree_start ground root)
      (Arena.node?_start_eq_some_iff.mpr ⟨rfl, rfl⟩) (imported ++ catalog.resources)
    simp only [bind, Except.bind, ofDeclarations]
    rw [show ResourcePath.root = (Node.root root ground.properties).path from rfl, ← shown]
    cases added : (Arena.start ground root).addAll ground root (imported ++ catalog.resources) with
    | error failure => rfl
    | ok grown =>
      have base : grown.base = root := Arena.base_of_grown (Arena.grown_of_addAll _ added)
      obtain ⟨_, nodes⟩ := grown
      cases base
      rfl

theorem exists_build_iff {settings : Settings} {host : Host} {load : ImportLoader}
    {catalog : Catalog} {layout : Layout} :
    (∃ library, build settings host load catalog = .ok library ∧
      library.arena.layout = layout) ↔
      ∃ imported, catalog.imports.mapM (·.load load) = .ok imported ∧
        (Arena.start (.of settings host catalog.properties) root).layout.addAll
          (.of settings host catalog.properties) .root (imported ++ catalog.resources) =
            .ok layout := by
  rw [← bind_eq_ok_iff, ← layout_build]
  cases build settings host load catalog <;> simp [Except.map]

section
variable {settings : Settings} {host : Host} {load : ImportLoader} {catalog : Catalog}
  {library : Library}

theorem ground_of_build (built : build settings host load catalog = .ok library) :
    library.ground = .of settings host catalog.properties := by
  obtain ⟨imported, _, rest⟩ := bind_eq_ok_iff.mp built
  obtain ⟨arena, _, same⟩ := bind_eq_ok_iff.mp rest
  cases same
  rfl

theorem extends_of_build (built : build settings host load catalog = .ok library) :
    ∃ imported, catalog.imports.mapM (·.load load) = .ok imported ∧
      (Arena.start library.ground root).layout.Extends library.ground
        (Declaration.statedAll .root (imported ++ catalog.resources)) library.arena.layout := by
  obtain ⟨imported, loaded, grown⟩ := exists_build_iff.mp ⟨library, built, rfl⟩
  rw [ground_of_build built]
  exact ⟨imported, loaded, Layout.extends_addAll _ grown⟩

theorem header_eq_first? (tree : library.arena.IsTree) {declarations : List Declaration}
    (extended : (Arena.start library.ground root).layout.Extends library.ground
      (Declaration.statedAll .root declarations) library.arena.layout)
    {id : ResourceId} {node : Node} (found : library.arena.node? id = some node) :
    node.header = Declaration.first? .root declarations node.path := by
  by_cases atBase : id = library.arena.base
  · subst atBase
    obtain ⟨top, here, isTop⟩ := tree.top
    rw [found] at here
    cases here
    rw [isTop.path, isTop.header, Declaration.first?_place]
  · have below : node.path ≠ .root := fun atRoot => atBase ((tree.path_eq_root_iff found).mp atRoot)
    have free : (Arena.start library.ground root).layout node.path = none := by simp [below]
    have stated := extended.header free
    rw [tree.layout_of_node? found, Option.map_some, Node.header_unnumbered, eq_comm,
      Option.map_eq_some_iff] at stated
    obtain ⟨header, first, same⟩ := stated
    rw [← same, ← first]
    rfl

theorem properties_root (tree : library.arena.IsTree) (registry : Registry)
    {stated : List (ResourcePath × Header)}
    (extended : (Arena.start library.ground root).layout.Extends library.ground stated
      library.arena.layout) :
    (library.node registry root).properties = library.ground.properties ∧
      (library.node registry root).statutoryVersion = none ∧
      (library.node registry root).filters = ∅ := by
  have here := node?_of_lt (size_pos_of_isTree tree) registry
  have early : (Arena.start library.ground root).layout .root =
      some (.root 0 library.ground.properties) := by simp
  have kept := extended.kept early
  have path := (top_root tree registry).path
  have shown := tree.layout_of_node? here
  rw [path, kept, Option.some.injEq] at shown
  refine ⟨?_, ?_, ?_⟩
  · rw [← Node.properties_unnumbered, ← shown]
    rfl
  · rw [← Node.statutoryVersion_unnumbered, ← shown]
    rfl
  · rw [← Node.filters_unnumbered, ← shown]
    rfl

end

/-- The header declared first for a path decides for it: a resource has the version that it
declares or takes over; a property the value that the nearest resource on the way to the root sets,
and a filter the one that the nearest declares. What stands at some point of the construction keeps
them to the end. -/
theorem inheritance_of_build {settings : Settings} {host : Host} {load : ImportLoader}
    {catalog : Catalog} {library : Library}
    (built : build settings host load catalog = .ok library) (registry : Registry) :
    ∃ imported, catalog.imports.mapM (·.load load) = .ok imported ∧
      let first := Declaration.first? .root (imported ++ catalog.resources)
      let nodes := library.node registry
      (∀ id < library.frozen.size, id ≠ 0 → ∃ header above,
        let node := nodes id
        let way := node :: ancestors nodes node
        first node.path = some header ∧ node.header = some header ∧ node.parent = some above ∧
        node.statutoryVersion = header.version.or
          (if header.isAnonymous then none else (nodes above).statutoryVersion) ∧
        (node.version = none ↔ header.isAnonymous = true ∧ header.version = none) ∧
        (∀ key, node.properties.get? key =
          (way.findSome? fun near => (first near.path).bind (·.ownProperty? near key)).or
            ((catalog.properties.get? key).or (settings.properties.get? key))) ∧
        ∀ token, (filtersOf nodes node).get? token =
          way.findSome? fun near => (first near.path).bind (·.filterValue? token)) ∧
      (nodes 0).statutoryVersion = none ∧
      ∀ mid, Arena.Grown library.ground (.start library.ground root) mid →
        Arena.Grown library.ground mid library.arena →
        ∀ id node, mid.node? id = some node →
          (nodes id).statutoryVersion = node.statutoryVersion ∧ (nodes id).version = node.version ∧
          (nodes id).properties = node.properties ∧
          filtersOf nodes (nodes id) = filtersOf mid.node node := by
  obtain ⟨imported, loaded, extended⟩ := extends_of_build built
  have tree := isTree_of_build built
  have made := extended.made_of_made (Arena.layout_made_start library.ground root)
  have agree : ∀ {id node}, library.arena.node? id = some node → library.node registry id = node :=
    fun found => node_of_node? found registry
  have stated : ∀ {id node}, library.arena.node? id = some node →
      node.header = Declaration.first? .root (imported ++ catalog.resources) node.path :=
    fun found => header_eq_first? tree extended found
  obtain ⟨properties, statutory, filters⟩ := properties_root tree registry extended
  refine ⟨imported, loaded, ?_, statutory, ?_⟩
  · intro id inside away
    have found := node?_of_lt inside registry
    obtain ⟨above, there, joined⟩ := tree.above found away
    obtain ⟨header, basedir, declared, same⟩ := tree.made_of_joined made found there joined
    have version := congrArg Node.version same
    have handed := congrArg Node.statutoryVersion same
    rw [Node.version_unnumbered, Node.version_unnumbered] at version
    rw [Node.statutoryVersion_unnumbered, Node.statutoryVersion_unnumbered] at handed
    refine ⟨header, above.id, ?_, declared, joined.parent, ?_, ?_, fun key => ?_, fun token => ?_⟩
    · rw [← stated found, declared]
    · rw [handed, agree there]
      rfl
    · rw [version]
      exact Header.version?_eq_none_iff library.ground above header
    · rw [tree.get?_properties_eq_nearest agree made stated key found]
      congr 1
      rw [show library.arena.base = root from rfl, properties, ground_of_build built, Ground.of,
        Table.get?_overlay]
    · exact tree.get?_filtersOf_eq_nearest agree made stated filters token found
  · intro mid before after id node found
    have grove := (Arena.isTree_start library.ground root).grown before
    obtain ⟨kept, there, alike⟩ := grove.node?_of_grown after found
    rw [agree there]
    refine ⟨?_, ?_, ?_, ?_⟩
    · rw [← Node.statutoryVersion_childless, alike, Node.statutoryVersion_childless]
    · rw [← Node.version_childless, alike, Node.version_childless]
    · rw [← Node.properties_childless, alike, Node.properties_childless]
    · refine grove.filtersOf_of_layout tree (grove.layout_of_grown after) Arena.node_of_node? agree
        found there ?_
      rw [← Node.path_childless, alike, Node.path_childless]

def estate : Catalog :=
  (((Catalog.empty.withProperty "season" "winter").withResource
    (((Declaration.module "farm").withVersion "1.0").withFilter "owner" "none"
      |>.withFilter "owner" "Ann")).withResource
    (((Declaration.module "farm").withProperty "season" "summer").withNested
      (.resource "barn")))

theorem inheritance_of_build_estate :
    ∃ library, build (.ofRoot ⟨"/"⟩) "now" .none estate = .ok library ∧
      let nodes := library.node .empty
      Declaration.first? .root estate.resources ⟨["farm", "barn"]⟩ = some (.of .resource "barn") ∧
      (nodes 2).path = ⟨["farm", "barn"]⟩ ∧ (nodes 2).parent = some 1 ∧
      (nodes 2).statutoryVersion = (nodes 1).statutoryVersion ∧ (nodes 2).version = some "1.0" ∧
      (nodes 2).properties.get? "season" = some "winter" ∧
      (filtersOf nodes (nodes 2)).get? "owner" = some "Ann" := by
  obtain ⟨library, built, size, path, parent, stated, version, season, owner⟩ : ∃ library,
      build (.ofRoot ⟨"/"⟩) "now" .none estate = .ok library ∧ library.frozen.size = 3 ∧
      (library.node .empty 2).path = ⟨["farm", "barn"]⟩ ∧
      (library.node .empty 2).parent = some 1 ∧
      (library.node .empty 2).header = some (.of .resource "barn") ∧
      (library.node .empty 2).version = some "1.0" ∧
      (library.node .empty 2).properties.get? "season" = some "winter" ∧
      (filtersOf (library.node .empty) (library.node .empty 2)).get? "owner" = some "Ann" :=
    ⟨_, rfl, rfl, rfl, rfl, rfl, rfl, rfl, rfl⟩
  obtain ⟨imported, loaded, resources, _⟩ := inheritance_of_build built .empty
  obtain ⟨header, above, first, declared, up, statutory, _⟩ :=
    resources 2 (by rw [size]; decide) (by decide)
  cases loaded
  cases up.symm.trans parent
  cases declared.symm.trans stated
  exact ⟨library, built, path ▸ first, path, parent, statutory, version, season, owner⟩

end ResourceLibrary.Library
