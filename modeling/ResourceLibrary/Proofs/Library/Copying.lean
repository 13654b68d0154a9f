import ResourceLibrary.Proofs.Library.Exporting

/-!
Libraries built from one declaration. Main statements: a declaration that leaves nothing open builds
a library that has a node for each of its headers and no other but the root; and a node whose header
was exported from another node has all in common with that one but its place on disk and the products
that are not exported.
-/

namespace ResourceLibrary

structure Node.Follows (node : Node) (header : Header) : Prop where
  name : node.name = header.name
  isModule : node.isModule = header.isModule
  version : header.version.isSome = true → node.version = header.version
  versioned : header.isAnonymous = false → node.version.isSome = true
  products : node.deliverables = header.products.map (.ofProduct · ⟨header.name,
    (ResourcePath.mk node.path.segments.dropLast).text, node.version, header.scheme, node.basedir⟩)

/-- What a node that was made from an exported header has in common with the one it stands for. -/
structure Node.Replica (node twin : Node) : Prop where
  path : twin.path = node.path
  isModule : twin.isModule = node.isModule
  version : twin.version = node.version
  properties : twin.header.map (·.properties) = node.header.map (·.properties)
  info : twin.header.map (·.info) = node.header.map (·.info)
  exported : twin.header.map (·.exported) = node.header.map (·.exported)
  scheme : twin.header.map (·.scheme) = node.header.map (·.scheme)
  products : twin.deliverables.map (fun product => (product.compoundName, product.coordinate.text)) =
    (node.deliverables.filter fun product => product.exported && !product.isTest).map
      fun product => (product.compoundName, product.coordinate.text)

theorem Header.follows_node (ground : Ground) (above : Node) (id : ResourceId) (header : Header)
    (basedir : Option FilePath) : (header.node ground above id basedir).Follows header := by
  refine ⟨name_node .., isModule_node .., ?version, ?versioned, ?products⟩
  case version =>
    intro stated
    obtain ⟨version, given⟩ := Option.isSome_iff_exists.mp stated
    simp [Header.node, Header.version?, Header.statutoryVersion?, given]
  case versioned =>
    intro named
    simp [Header.node, Header.version?, named]
  case products => simp [Header.node, ResourcePath.child]

theorem Arena.Made.follows {ground : Ground} {arena : Arena} (made : arena.Made ground)
    {id : ResourceId} {node : Node} {header : Header} (found : arena.node? id = some node)
    (stated : node.header = some header) : node.Follows header := by
  obtain ⟨above, basedir, same⟩ := made id node header found stated
  obtain ⟨name, isModule, version, versioned, products⟩ :=
    header.follows_node ground above id basedir
  rw [← same] at name isModule version versioned products
  simp only [Node.name, Node.path_childless, Node.isModule_childless, Node.version_childless,
    Node.deliverables_childless, Node.basedir_childless] at name isModule version versioned products
  exact ⟨name, isModule, version, versioned, products⟩

/-- A node that was made from the header exported from another one is a replica of it. -/
theorem Node.replica_of_follows {node twin : Node} {header other : Header}
    (stated : node.header = some header) (follows : node.Follows header)
    (named : header.isAnonymous = false) (copied : twin.header = some other)
    (also : twin.Follows other) (bare : other.bare = node.exportHeader)
    (path : twin.path = node.path) : node.Replica twin := by
  have same := @Header.eq_of_bare _ _ bare
  have name : other.name = node.name :=
    (same (·.name) fun _ => rfl).trans (name_exportHeader _)
  have version : twin.version = node.version := by
    have exported : other.version = node.version :=
      (same (·.version) fun _ => rfl).trans (version_exportHeader _)
    rw [← exported]
    exact also.version (exported ▸ follows.versioned named)
  have scheme : other.scheme = header.scheme := by
    simpa [exportHeader, stated] using same (·.scheme) fun _ => rfl
  refine ⟨path, ?isModule, version, ?properties, ?info, ?exported, ?scheme, ?products⟩
  case isModule =>
    rw [also.isModule]
    exact (same (·.isModule) fun _ => rfl).trans (isModule_exportHeader _)
  case properties =>
    simpa [exportHeader, stated, copied] using same (·.properties) fun _ => rfl
  case info => simpa [exportHeader, stated, copied] using same (·.info) fun _ => rfl
  case exported => simpa [exportHeader, stated, copied] using same (·.exported) fun _ => rfl
  case scheme => simp [stated, copied, scheme]
  case products =>
    have products : other.products =
        header.products.filter fun product => product.exported && !product.isTest := by
      simpa [exportHeader, stated] using same (·.products) fun _ => rfl
    rw [also.products, follows.products, products, name, follows.name, version, path, scheme,
      List.filter_map, List.map_map, List.map_map]
    rfl

theorem Library.build_alone_eq_ok_iff {settings : Settings} {host : Host}
    {load : ImportLoader} {declaration : Declaration} {library : Library} :
    build settings host load (Catalog.empty.withResource declaration) = .ok library ↔
      ∃ id grown, (Arena.start (.of settings host ∅) root).add (.of settings host ∅) root
        declaration = .ok (id, grown) ∧
        library = ⟨settings, .of settings host ∅, grown.nodes⟩ := by
  have built : build settings host load (Catalog.empty.withResource declaration) =
      ofDeclarations settings (.of settings host ∅) [declaration] := rfl
  rw [built, ofDeclarations, bind_eq_ok_iff]
  constructor
  · rintro ⟨grown, added, done⟩
    obtain ⟨id, mid, first, rest⟩ := Arena.addAll_cons_eq_ok_iff.mp added
    cases rest
    cases done
    exact ⟨id, grown, first, rfl⟩
  · rintro ⟨id, grown, first, rfl⟩
    exact ⟨grown, Arena.addAll_cons_eq_ok_iff.mpr ⟨id, grown, first, rfl⟩, rfl⟩

theorem Library.exists_build_of_plantable (settings : Settings) (host : Host)
    (load : ImportLoader) {declaration : Declaration} (plantable : declaration.Plantable) :
    ∃ library, build settings host load (Catalog.empty.withResource declaration) =
      .ok library := by
  have fits : Arena.Fits (.of settings host ∅) declaration := Arena.fits_of_plantable plantable
  obtain ⟨id, grown, added, _⟩ := fits _ _ _ (Arena.isTree_start _ root)
    (Arena.node?_start_eq_some_iff.mpr ⟨rfl, rfl⟩) rfl rfl
  exact ⟨_, Library.build_alone_eq_ok_iff.mpr ⟨id, grown, added, rfl⟩⟩

/-- A library that has a node for each header of a declaration and no other but the root. -/
structure Library.Planted (library : Library) (declaration : Declaration) : Prop where
  isTree : library.arena.IsTree
  declared : library.arena.Declared
  made : library.arena.Made library.ground
  found : ∀ path header, Declares .root declaration path header →
    ∃ id node, library.arena.node? id = some node ∧ node.path = path ∧ node.header = some header
  accounted : ∀ id node header, library.arena.node? id = some node → node.header = some header →
    Declares .root declaration node.path header

section
variable {settings : Settings} {host : Host} {load : ImportLoader} {declaration : Declaration}
  {library : Library}
  (built : Library.build settings host load (Catalog.empty.withResource declaration) =
    .ok library)
include built

theorem Library.add_of_build : ∃ id,
    (Arena.start library.ground root).add library.ground root declaration =
      .ok (id, library.arena) := by
  obtain ⟨id, grown, added, rfl⟩ := build_alone_eq_ok_iff.mp built
  have base : grown.base = root := Arena.base_of_grown (Arena.grown_of_add _ added)
  cases grown
  cases base
  exact ⟨id, added⟩

theorem Library.accounted_of_build {id : ResourceId} {node : Node}
    (found : library.arena.node? id = some node) :
    node.childless = .root root library.ground.properties ∨
      ∃ header, Declares .root declaration node.path header ∧ node.header = some header := by
  obtain ⟨_, added⟩ := add_of_build built
  rcases Arena.accounted_of_add (Arena.isTree_start _ _)
    (Arena.node?_start_eq_some_iff.mpr ⟨rfl, rfl⟩) declaration added id node found with
    ⟨old, here, alike⟩ | declared
  · obtain ⟨_, rfl⟩ := Arena.node?_start_eq_some_iff.mp here
    exact .inl alike
  · exact .inr declared

theorem Library.planted_of_build (plantable : declaration.Plantable) :
    library.Planted declaration := by
  refine ⟨isTree_of_build built, declared_of_build built,
    (Arena.made_start _ _).of_grown (Arena.isTree_start _ _) (grown_of_build built), ?found,
    ?accounted⟩
  case found =>
    intro path header declares
    obtain ⟨_, added⟩ := add_of_build built
    obtain ⟨id, node, here, place⟩ := Arena.node?_of_declares declares (Arena.isTree_start _ _)
      (Arena.node?_start_eq_some_iff.mpr ⟨rfl, rfl⟩) rfl added
    refine ⟨id, node, here, place, ?_⟩
    rcases accounted_of_build built here with bare | ⟨other, also, stated⟩
    · have above := declares.prefix_path.length_le
      rw [← place, ← Node.path_childless, bare] at above
      simp [Node.root, ResourcePath.root, ResourcePath.child] at above
    · rw [place] at also
      rw [stated, also.unique plantable declares]
  case accounted =>
    intro id node header found stated
    rcases accounted_of_build built found with bare | ⟨other, declares, also⟩
    · rw [← Node.header_childless, bare] at stated
      cases stated
    · rw [stated] at also
      cases also
      exact declares

end
end ResourceLibrary
