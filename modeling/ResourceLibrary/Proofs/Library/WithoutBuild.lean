import ResourceLibrary.Proofs.Arena.WithoutBuild
import ResourceLibrary.Proofs.Library.Always

/-!
Libraries without what their resources include at BUILD. Main statements: a query that skips BUILD
tiers answers the same without it; and declarations that differ in BUILD includes alone build
libraries that do.
-/

namespace ResourceLibrary

namespace Library

def withoutBuild (library : Library) : Library :=
  { library with frozen := library.frozen.map Node.withoutBuild }

@[simp] theorem size_withoutBuild (library : Library) :
    library.withoutBuild.frozen.size = library.frozen.size := by
  simp [withoutBuild]

@[simp] theorem next_withoutBuild (library : Library) (registry : Registry) :
    registry.next library.withoutBuild = registry.next library := by
  simp [Registry.next]

theorem node_withoutBuild_of_lt {library : Library} {id : ResourceId}
    (frozen : id < library.frozen.size) (registry : Registry) :
    library.withoutBuild.node registry id = (library.node registry id).withoutBuild := by
  simp [node, withoutBuild, frozen]

theorem node_withoutBuild_of_le {library : Library} {id : ResourceId}
    (behind : library.frozen.size ≤ id) (registry : Registry) :
    library.withoutBuild.node registry id = library.node registry id := by
  simp [node, Nat.not_lt.mpr behind]

theorem shown_withoutBuild {β : Type} (shown : Node → β)
    (same : ∀ node : Node, shown node.withoutBuild = shown node) (library : Library)
    (registry : Registry) (id : ResourceId) :
    shown (library.withoutBuild.node registry id) = shown (library.node registry id) := by
  rcases Nat.lt_or_ge id library.frozen.size with frozen | behind
  · rw [node_withoutBuild_of_lt frozen, same]
  · rw [node_withoutBuild_of_le behind]

@[simp] theorem isModule_withoutBuild (library : Library) (registry : Registry) (id : ResourceId) :
    (library.withoutBuild.node registry id).isModule = (library.node registry id).isModule :=
  shown_withoutBuild Node.isModule Node.isModule_withoutBuild library registry id

@[simp] theorem child?_withoutBuild (library : Library) (registry : Registry) (id : ResourceId)
    (name : String) :
    (library.withoutBuild.node registry id).child? name =
      (library.node registry id).child? name :=
  shown_withoutBuild (·.child? name) (·.child?_withoutBuild name) library registry id

@[simp] theorem path_withoutBuild (library : Library) (registry : Registry) (id : ResourceId) :
    (library.withoutBuild.node registry id).path = (library.node registry id).path :=
  shown_withoutBuild Node.path Node.path_withoutBuild library registry id

theorem descend_withoutBuild (library : Library) (registry : Registry) (start : ResourceId)
    (reference : String) (passed : List String) (id : ResourceId) (names : List String) :
    descend (library.withoutBuild.node registry) start reference passed id names =
      descend (library.node registry) start reference passed id names := by
  induction names generalizing passed id with
  | nil => rfl
  | cons name rest ih => simp only [descend, isModule_withoutBuild, path_withoutBuild,
      child?_withoutBuild, ih]

theorem resolve_withoutBuild (library : Library) (registry : Registry) (start : ResourceId)
    (reference : String) :
    resolve (library.withoutBuild.node registry) start reference =
      resolve (library.node registry) start reference := by
  simp only [resolve, descend_withoutBuild]

theorem reference_withoutBuild (library : Library) (registry : Registry) (node : Node)
    (entry : Include) :
    entry.reference (library.withoutBuild.node registry) node =
      entry.reference (library.node registry) node := by
  have outer : (enclosing? (library.withoutBuild.node registry) node).map (·.path) =
      (enclosing? (library.node registry) node).map (·.path) := by
    unfold enclosing?
    cases node.parent with
    | none => rfl
    | some parent =>
      have top := shown_withoutBuild Node.isRoot Node.isRoot_withoutBuild library registry parent
      cases root : (library.node registry parent).isRoot <;> simp [Option.filter, top, root]
  unfold Include.reference
  cases first : enclosing? (library.withoutBuild.node registry) node with
  | none =>
    cases second : enclosing? (library.node registry) node with
    | none => rfl
    | some other => simp [first, second] at outer
  | some above =>
    cases second : enclosing? (library.node registry) node with
    | none => simp [first, second] at outer
    | some other =>
      have paths : above.path = other.path := by simpa [first, second] using outer
      cases entry.mode <;> simp [paths]

theorem withBatch_withoutBuild (library : Library) (registry : Registry) (urn : String)
    (coordinate : Coordinate) (properties : Properties) :
    registry.withBatch library.withoutBuild urn coordinate properties =
      registry.withBatch library urn coordinate properties := by
  simp only [Registry.withBatch, next_withoutBuild]
  rfl

theorem grows_withoutBuild (library : Library) :
    Registry.Grows library.withoutBuild = Registry.Grows library := by
  unfold Registry.Grows
  congr 1
  funext registry grown
  apply propext
  constructor
  · rintro ⟨properties, fresh, read⟩
    rw [withBatch_withoutBuild]
    exact .batch properties fresh read
  · rintro ⟨properties, fresh, read⟩
    rw [← withBatch_withoutBuild]
    exact .batch properties fresh read

theorem ofDeclarations_withoutBuild {settings : Settings} {ground : Ground}
    {declarations : List Declaration} {library : Library}
    (made : ofDeclarations settings ground declarations = .ok library) :
    ofDeclarations settings ground (Declaration.withoutBuildAll declarations) =
      .ok library.withoutBuild := by
  obtain ⟨arena, grown, same⟩ := bind_eq_ok_iff.mp made
  cases same
  have smaller := Arena.addAll_withoutBuild declarations grown
  rw [Arena.start_withoutBuild] at smaller
  exact bind_eq_ok_iff.mpr ⟨_, smaller, rfl⟩

/-- Catalogs that differ in BUILD includes alone, with what they import, build libraries that do. -/
theorem withoutBuild_eq_of_build {settings : Settings} {host : Host}
    {load reload : ImportLoader} {catalog edited : Catalog} {library other : Library}
    (built : build settings host load catalog = .ok library)
    (rebuilt : build settings host reload edited = .ok other)
    (properties : edited.properties = catalog.properties)
    (differ : ∀ imported others, catalog.imports.mapM (·.load load) = .ok imported →
      edited.imports.mapM (·.load reload) = .ok others →
        Declaration.withoutBuildAll (others ++ edited.resources) =
          Declaration.withoutBuildAll (imported ++ catalog.resources)) :
    other.withoutBuild = library.withoutBuild := by
  obtain ⟨imported, loaded, made⟩ := bind_eq_ok_iff.mp built
  obtain ⟨others, reloaded, remade⟩ := bind_eq_ok_iff.mp rebuilt
  have first := ofDeclarations_withoutBuild made
  have second := ofDeclarations_withoutBuild remade
  rw [properties, differ imported others loaded reloaded, first] at second
  exact (Except.ok.inj second).symm

end Library

namespace Query
variable {α β : Type}

/-- Whether anything is included at BUILD makes no difference to the query. -/
def IgnoresBuild (query : Query α) : Prop :=
  ∀ library registry,
    query.answer library.withoutBuild registry = query.answer library registry

theorem ignoring_pure (value : α) : IgnoresBuild (pure value) := fun _ _ => rfl

theorem ignoring_bind {query : Query α} {next : α → Query β} (first : IgnoresBuild query)
    (rest : ∀ value, IgnoresBuild (next value)) : IgnoresBuild (query >>= next) := by
  intro library registry
  rw [answer_bind, answer_bind, first]
  rcases query.answer library registry with ⟨_ | value, grown⟩
  · rfl
  · exact rest value library grown

theorem ignoring_nodes {next : (ResourceId → Node) → Query β}
    (same : ∀ library registry,
      next (Library.node (Library.withoutBuild library) registry) =
        next (Library.node library registry))
    (rest : ∀ nodes, IgnoresBuild (next nodes)) : IgnoresBuild (nodes >>= next) := by
  intro library registry
  rw [answer_bind, answer_bind, answer_nodes, answer_nodes]
  simp only [same]
  exact rest _ library registry

theorem ignoring_node {next : Node → Query β}
    (same : ∀ node : Node, next node.withoutBuild = next node)
    (rest : ∀ node, IgnoresBuild (next node)) (id : ResourceId) :
    IgnoresBuild (node id >>= next) := by
  intro library registry
  rw [answer_bind, answer_bind, answer_node, answer_node]
  simp only [Library.shown_withoutBuild next same]
  exact rest _ library registry

theorem ignoring_depth : IgnoresBuild depth := by
  intro library registry
  rw [answer_depth, answer_depth, Library.next_withoutBuild]

theorem ignoring_ofExcept (result : Except Failure α) : IgnoresBuild (ofExcept result) := by
  intro library registry
  rw [answer_ofExcept, answer_ofExcept]

theorem ignoring_mapFailure {query : Query α} (ignoring : IgnoresBuild query)
    (change : Failure → Failure) : IgnoresBuild (query.mapFailure change) := by
  intro library registry
  rw [answer_mapFailure, answer_mapFailure, ignoring]

theorem ignoring_mapM {step : α → Query β} {items : List α}
    (ignoring : ∀ item ∈ items, IgnoresBuild (step item)) : IgnoresBuild (items.mapM step) := by
  induction items with
  | nil => exact ignoring_pure []
  | cons item rest ih =>
    rw [List.mapM_cons]
    refine ignoring_bind (ignoring item (by simp)) fun _ => ?_
    exact ignoring_bind (ih fun other member => ignoring other (by simp [member])) fun _ =>
      ignoring_pure _

theorem ignoring_foldlM {step : β → α → Query β}
    (ignoring : ∀ value item, IgnoresBuild (step value item)) (items : List α) (value : β) :
    IgnoresBuild (items.foldlM step value) := by
  induction items generalizing value with
  | nil => exact ignoring_pure value
  | cons item rest ih =>
    rw [List.foldlM_cons]
    exact ignoring_bind (ignoring value item) fun further => ih further

theorem ignoring_visit {next : α → Query (List α)} [DecidableEq α]
    (ignoring : ∀ node, IgnoresBuild (next node)) (depth : Nat) (above : List α) (walk : Walk α)
    (node : α) : IgnoresBuild (Walk.visit next depth above walk node) := by
  induction depth generalizing above walk node with
  | zero => exact ignoring_pure walk
  | succ depth ih =>
    rw [Walk.visit]
    split
    · exact ignoring_pure _
    · split
      · exact ignoring_pure _
      · refine ignoring_bind (ignoring node) ?_
        intro found
        exact ignoring_bind (ignoring_foldlM (ih _) found walk) fun _ => ignoring_pure _

theorem ignoring_gather {providers : Scope → Query (List ResourceId)} {tiers : List Scope}
    (ignoring : ∀ tier ∈ tiers, IgnoresBuild (providers tier)) :
    IgnoresBuild (gather tiers providers) :=
  ignoring_bind (ignoring_mapM ignoring) fun _ => ignoring_pure _

theorem ignoring_closure {next : ResourceId → Query (List ResourceId)}
    (ignoring : ∀ node, IgnoresBuild (next node)) (starts : List ResourceId) :
    IgnoresBuild (closure starts next) := by
  refine ignoring_bind ignoring_depth ?_
  intro depth
  exact ignoring_bind (ignoring_foldlM (ignoring_visit ignoring depth []) starts _) fun _ =>
    ignoring_pure _

theorem ignoring_lookup (start : ResourceId) (reference : String) :
    IgnoresBuild (lookup start reference) := by
  refine ignoring_nodes ?_ fun _ => ignoring_ofExcept _
  intro library registry
  simp only [Library.resolve_withoutBuild]

theorem ignoring_anonymous (urn : String) (properties : Properties) :
    IgnoresBuild (anonymous urn properties) := by
  intro library registry
  simp only [answer_anonymous, Library.next_withoutBuild, Library.withBatch_withoutBuild]

theorem ignoring_included (node : Node) (tier : Scope) (category : Option Category)
    (entry : Include) : IgnoresBuild (included node tier category entry) := by
  unfold included
  split
  · exact ignoring_mapFailure (ignoring_anonymous _ _) _
  · refine ignoring_nodes ?_ fun _ => ignoring_mapFailure (ignoring_lookup _ _) _
    intro library registry
    simp only [Library.reference_withoutBuild]

theorem included_withoutBuild (node : Node) (tier : Scope) (category : Option Category) :
    included node.withoutBuild tier category = included node tier category := by
  funext entry
  unfold included
  simp only [Node.text_withoutBuild]
  rfl

theorem ignoring_declared (id : ResourceId) {tier : Scope} (above : tier ≠ .build)
    (category : Option Category) : IgnoresBuild (declared id tier category) := by
  refine ignoring_node ?_ ?_ id
  · intro node
    cases stated : node.header with
    | none => simp only [Node.header_withoutBuild, stated, Option.map_none]
    | some header =>
      simp only [Node.header_withoutBuild, stated, Option.map_some,
        Header.includes_withoutBuild header above, included_withoutBuild,
        Node.children_withoutBuild]
  · intro node
    split
    · exact ignoring_pure _
    · refine ignoring_bind (ignoring_mapM fun _ _ => ?_) fun _ => ignoring_pure _
      exact ignoring_included node tier category _

theorem ignoring_localProviders (id : ResourceId) {tier : Scope} (above : tier ≠ .build)
    (category : Option Category) : IgnoresBuild (localProviders id tier category) := by
  rw [localProviders_eq_declared above]
  exact ignoring_declared id above category

theorem ignoring_aggregated (id : ResourceId) (scope : Scope) :
    IgnoresBuild (aggregated id scope false) := by
  refine ignoring_gather fun tier member => ignoring_localProviders id ?_ none
  rintro rfl
  exact scope.build_not_mem_tiers member

theorem answer_aggregatedProviders_build (id : ResourceId) (library : Library)
    (registry : Registry) :
    (aggregatedProviders id .build true false).answer library registry = (.ok [], registry) := rfl

theorem ignoring_aggregatedProviders (id : ResourceId) (scope : Scope) :
    IgnoresBuild (aggregatedProviders id scope true false) := by
  cases scope with
  | build =>
    intro library registry
    rw [answer_aggregatedProviders_build, answer_aggregatedProviders_build]
  | runtime =>
    exact ignoring_bind (ignoring_aggregated id .runtime) fun found =>
      ignoring_closure (ignoring_aggregated · .runtime) found
  | test =>
    exact ignoring_bind (ignoring_aggregated id .test) fun found =>
      ignoring_closure (ignoring_aggregated · .test) found

end Query

section
variable {library other : Library} (differ : other.withoutBuild = library.withoutBuild)
include differ

theorem Library.shown_eq_of_withoutBuild {β : Type} (shown : Node → β)
    (same : ∀ node : Node, shown node.withoutBuild = shown node) (registry : Registry)
    (id : ResourceId) : shown (other.node registry id) = shown (library.node registry id) := by
  rw [← other.shown_withoutBuild shown same, differ, library.shown_withoutBuild shown same]

theorem Library.next_eq_of_withoutBuild (registry : Registry) :
    registry.next other = registry.next library := by
  rw [← other.next_withoutBuild, differ, library.next_withoutBuild]

theorem Library.grows_eq_of_withoutBuild : Registry.Grows other = Registry.Grows library := by
  rw [← other.grows_withoutBuild, differ, library.grows_withoutBuild]

theorem Query.IgnoresBuild.answer_eq {α : Type} {query : Query α} (ignoring : query.IgnoresBuild)
    (registry : Registry) : query.answer other registry = query.answer library registry := by
  rw [← ignoring other, differ, ignoring library]

end
end ResourceLibrary
