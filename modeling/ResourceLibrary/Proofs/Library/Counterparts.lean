import ResourceLibrary.Proofs.Library.Answering
import ResourceLibrary.Proofs.Library.Copying

/-!
A library built from the export of a module, beside the library that the module is from. Main
statements: each resource at or below the module has a counterpart at its path, and nothing else in
the copy includes anything; the expanded RUNTIME providers of a plain counterpart are what stands for
the providers that its original needs.
-/

namespace ResourceLibrary
open Registry (Grows Reached)

def Declaration.Includes (declaration : Declaration) (entry : Include) : Prop :=
  ∃ path header dependency, Declares .root declaration path header ∧
    dependency ∈ header.dependencies ∧ entry ∈ dependency.includes

def Declaration.Literal (declaration : Declaration) : Prop :=
  ∀ entry, declaration.Includes entry → entry.mode = .uri →
    Text.holdsPair '$' '\x7b' entry.value.toList = false

theorem Declaration.includes_of_declares {declaration : Declaration} {path : ResourcePath}
    {header : Header} (declares : Declares .root declaration path header) {scope : Scope}
    {category : Option Category} {entry : Include} (member : entry ∈ header.includes scope category) :
    declaration.Includes entry := by
  obtain ⟨⟨dependency, listed, _, inside⟩, _⟩ := Header.mem_includes_iff.mp member
  exact ⟨path, header, dependency, declares, listed, inside⟩

theorem Include.reference_of_ref {nodes : ResourceId → Node} {node : Node} {entry : Include}
    (mode : entry.mode = .ref) : entry.reference nodes node = entry.value := by
  simp [Include.reference, mode]

/-- What a resource at or below a module is in a library built from the module's export. -/
structure Counterpart (library : Library) (registry : Registry) (module : ResourceId)
    (copy : Library) (id twin : ResourceId) : Prop where
  inside : AtOrBelow (library.node registry) module id
  frozen : twin < copy.frozen.size
  path : (copy.node .empty twin).path = (library.node registry id).path
  written : ∃ header, (copy.node .empty twin).header = some header ∧
    Written library registry module id header

/-- What a provider is in such a library: its counterpart, or the resource of the coordinate of one
of its products. -/
inductive StandsFor (library : Library) (registry : Registry) (module : ResourceId)
    (copy : Library) (last : Registry) (provider : ResourceId) : ResourceId → Prop
  | inside {twin : ResourceId} (counterpart : Counterpart library registry module copy provider twin) :
    StandsFor library registry module copy last provider twin
  | outside {product : Deliverable} {leaf : ResourceId}
    (apart : ¬AtOrBelow (library.node registry) module provider)
    (member : product ∈ (library.node registry provider).deliverables)
    (found : last.urns.lookup product.coordinate.text = some leaf) :
    StandsFor library registry module copy last provider leaf

section
variable {library : Library} {registry : Registry} {module : ResourceId} {copy : Library}
  {last final : Registry} {provider other : ResourceId}

theorem StandsFor.later
    (stands : StandsFor library registry module copy last provider other)
    (grows : Grows copy last final) :
    StandsFor library registry module copy final provider other := by
  rcases stands with counterpart | ⟨apart, member, found⟩
  · exact .inside counterpart
  · exact .outside apart member (grows.lookup found)

theorem StandsFor.earlier (reached : Reached copy last)
    (stands : StandsFor library registry module copy final provider other)
    (grows : Grows copy last final) (known : other < last.next copy) :
    StandsFor library registry module copy last provider other := by
  rcases stands with counterpart | ⟨apart, member, found⟩
  · exact .inside counterpart
  · exact .outside apart member (reached.lookup_of_lt grows found known)

theorem Counterpart.written_of_header {id twin : ResourceId}
    (counterpart : Counterpart library registry module copy id twin) {header : Header}
    (stated : (copy.node last twin).header = some header) :
    Written library registry module id header := by
  obtain ⟨other, also, written⟩ := counterpart.written
  rw [Library.node_eq_of_lt counterpart.frozen last .empty, also] at stated
  cases stated
  exact written

theorem Counterpart.isAnonymous {id twin : ResourceId}
    (counterpart : Counterpart library registry module copy id twin) (last : Registry) :
    (copy.node last twin).isAnonymous = false := by
  obtain ⟨header, stated, written⟩ := counterpart.written
  have classifier := (Header.eq_of_bare written.stated (·.classifier) fun _ => rfl).trans
    (Node.classifier_exportHeader _)
  rw [Library.node_eq_of_lt counterpart.frozen last .empty, Node.isAnonymous, stated,
    Option.any_some, Header.isAnonymous, classifier]
  rfl

end

section
variable {library : Library} (tree : library.arena.IsTree) {registry : Registry}
  (reached : Reached library registry) {module id provider : ResourceId} {header : Header}
  (written : Written library registry module id header)
  (plain : (library.node registry id).isModule = false)
  (supplied : library.Supplies registry id provider)
include tree reached written plain supplied

theorem Written.supplies_trans {other : Header} {inner : ResourceId}
    (also : Written library registry module provider other)
    (plainToo : (library.node registry provider).isModule = false)
    (further : library.Supplies registry provider inner) : library.Supplies registry id inner := by
  obtain ⟨category, among, finds⟩ := supplied
  obtain ⟨kind, present, found⟩ := further
  obtain ⟨ids, settled, expansion⟩ := written.supplied plain category among
  obtain ⟨others, asked, closed⟩ := also.supplied plainToo kind present
  refine ⟨category, among, settled.finds_iff.mpr ?_⟩
  exact expansion.subset_of_member tree reached (settled.finds_iff.mp finds) closed
    (asked.finds_iff.mp found)

theorem Written.supplies_child (stated : (library.node registry provider).header.isSome = true)
    {child : ResourceId} (below : child ∈ (library.node registry provider).children) :
    library.Supplies registry id child := by
  obtain ⟨category, among, finds⟩ := supplied
  obtain ⟨ids, settled, expansion⟩ := written.supplied plain category among
  refine ⟨category, among, settled.finds_iff.mpr ?_⟩
  exact expansion.mem_of_child tree reached (settled.finds_iff.mp finds) stated below

end

structure Rebuilt (library : Library) (registry : Registry) (module : ResourceId)
    (exported : Declaration) (copy : Library) : Prop where
  tree : library.arena.IsTree
  declared : library.arena.Declared
  reached : Reached library registry
  known : module < registry.next library
  shown : Exported library registry module exported
  planted : copy.Planted exported

namespace Rebuilt
variable {library : Library} {registry : Registry} {module : ResourceId} {exported : Declaration}
  {copy : Library} (rebuilt : Rebuilt library registry module exported copy) {id twin : ResourceId}
include rebuilt

theorem exists_counterpart (inside : AtOrBelow (library.node registry) module id) :
    ∃ twin, Counterpart library registry module copy id twin := by
  obtain ⟨tree, _, reached, known, shown, planted⟩ := rebuilt
  obtain ⟨header, declares⟩ := shown.complete id inside
  obtain ⟨twin, node, here, path, stated⟩ := planted.found _ _ declares
  rw [← Library.node_of_node? here .empty] at path stated
  refine ⟨twin, inside, Library.lt_of_node? here, path, header, stated, ?_⟩
  rcases shown.sound _ _ declares with ⟨inner, also, same, written⟩ | ⟨shorter, _⟩
  · rwa [eq_of_path_eq tree reached known also inside same] at written
  · have longer := (prefix_of_atOrBelow tree reached known inside).length_le
    exact absurd shorter (Nat.not_lt.mpr longer)

/-- All in the copy is a counterpart or a module around the module, which includes nothing. -/
theorem counterpart_cases (frozen : twin < copy.frozen.size) {header : Header}
    (stated : (copy.node .empty twin).header = some header) :
    (∃ id, Counterpart library registry module copy id twin) ∨
      (copy.node .empty twin).path.length < (library.node registry module).path.length ∧
        header.dependencies = [] := by
  have here := Library.node?_of_lt frozen .empty
  rcases rebuilt.shown.sound _ _ (rebuilt.planted.accounted twin _ header here stated) with
    ⟨id, inside, path, written⟩ | outer
  · exact .inl ⟨id, inside, frozen, path.symm, header, stated, written⟩
  · exact .inr outer

theorem exists_counterpart_of_includes (frozen : twin < copy.frozen.size) {header : Header}
    (stated : (copy.node .empty twin).header = some header) {tier : Scope}
    {category : Option Category} {entry : Include} (member : entry ∈ header.includes tier category) :
    ∃ id, Counterpart library registry module copy id twin ∧
      (library.node registry id).isModule = false ∧ entry ∈ header.includes .runtime none := by
  obtain ⟨⟨dependency, listed, _, inside⟩, _⟩ := Header.mem_includes_iff.mp member
  rcases rebuilt.counterpart_cases frozen stated with ⟨id, counterpart⟩ | ⟨_, bare⟩
  · have written := counterpart.written_of_header stated
    refine ⟨id, counterpart, Bool.not_eq_true _ ▸ fun isModule => ?_, Header.mem_includes_iff.mpr
      ⟨⟨dependency, listed, written.scopes _ listed, inside⟩, rfl⟩⟩
    rw [written.module isModule] at listed
    cases listed
  · rw [bare] at listed
    cases listed

theorem isRoot_eq_false (inside : AtOrBelow (library.node registry) module id) :
    (library.node registry id).isRoot = false := by
  obtain ⟨tree, _, reached, known, shown, _⟩ := rebuilt
  refine Bool.not_eq_true _ ▸ fun isRoot => ?_
  obtain ⟨header, declares⟩ := shown.complete id inside
  have above := declares.prefix_path.length_le
  rw [path_of_isRoot tree reached (known_of_atOrBelow known inside) isRoot] at above
  simp [ResourcePath.root, ResourcePath.child] at above

theorem isSome_header (inside : AtOrBelow (library.node registry) module id) :
    (library.node registry id).header.isSome = true :=
  Library.header_of_not_isRoot rebuilt.declared rebuilt.reached
    (known_of_atOrBelow rebuilt.known inside)
    (rebuilt.isRoot_eq_false inside)

section
variable (counterpart : Counterpart library registry module copy id twin) (last : Registry)
include counterpart

theorem isModule_counterpart :
    (copy.node last twin).isModule = (library.node registry id).isModule := by
  obtain ⟨header, stated, written⟩ := counterpart.written
  have kind := (Header.eq_of_bare written.stated (·.isModule) fun _ => rfl).trans
    (Node.isModule_exportHeader _)
  have follows := rebuilt.planted.made.follows (Library.node?_of_lt counterpart.frozen .empty) stated
  rw [Library.node_eq_of_lt counterpart.frozen last .empty, follows.isModule]
  exact kind

theorem resolve_counterpart :
    resolve (copy.node last) Library.root (library.node registry id).path.text = .ok twin := by
  have tree := rebuilt.planted.isTree
  have away : twin ≠ Library.root := by
    rintro rfl
    obtain ⟨header, stated, _⟩ := counterpart.written
    rw [Library.undeclared_root tree] at stated
    cases stated
  have found := Library.resolve_path tree last counterpart.frozen away
  rwa [Library.node_eq_of_lt counterpart.frozen last .empty, counterpart.path] at found

theorem leads_counterpart {entry : Include} (mode : entry.mode = .ref)
    (value : entry.value = (library.node registry id).path.text) (node : Node) :
    entry.Leads copy last node twin := by
  rw [Include.leads_iff_of_ne_uri (by simp [mode]), Include.reference_of_ref mode, value]
  exact rebuilt.resolve_counterpart counterpart last

theorem counterpart_of_child {child : ResourceId} (member : child ∈ (copy.node last twin).children) :
    ∃ inner ∈ (library.node registry id).children,
      Counterpart library registry module copy inner child := by
  have ⟨tree, _, reached, known, _, planted⟩ := rebuilt
  have start : Reached copy .empty := .refl
  rw [Library.node_eq_of_lt counterpart.frozen last .empty] at member
  have up := (mem_children_iff planted.isTree start (Nat.lt_add_right _ counterpart.frozen)).mp member
  have frozen : child < copy.frozen.size := Library.known_of_parent up
  have joined := (joined_of_parent planted.isTree start up).2
  have path := joined.path
  rw [counterpart.path] at path
  have deeper :
      (library.node registry module).path.length < (copy.node .empty child).path.length := by
    have above := (prefix_of_atOrBelow tree reached known counterpart.inside).length_le
    rw [path]
    simpa [ResourcePath.child, ResourcePath.length] using Nat.lt_succ_of_le above
  obtain ⟨header, stated⟩ := Option.isSome_iff_exists.mp
    (Library.header_of_not_isRoot planted.declared start (Library.known_of_parent up) joined.inner)
  rcases rebuilt.counterpart_cases frozen stated with ⟨inner, below⟩ | ⟨shorter, _⟩
  · refine ⟨inner, ?_, below⟩
    rcases Relation.ReflTransGen.cases_head below.inside with rfl | ⟨above, step, inside⟩
    · rw [below.path] at deeper
      exact absurd deeper (Nat.lt_irrefl _)
    · have outer := (joined_of_parent tree reached step).2.path
      rw [← below.path, path] at outer
      have same := congrArg ResourcePath.parent? outer
      rw [ResourcePath.parent?_child, ResourcePath.parent?_child, Option.some.injEq] at same
      rw [eq_of_path_eq tree reached known counterpart.inside inside same]
      exact (mem_children_iff tree reached (joined_of_parent tree reached step).1).mpr step
  · exact absurd deeper (Nat.lt_asymm shorter)

/-- What an include of a plain counterpart leads to stands for a provider of the original. -/
theorem leads_iff_standsFor (literal : exported.Literal)
    (plain : (library.node registry id).isModule = false) {header : Header}
    (stated : (copy.node last twin).header = some header) {other : ResourceId} :
    (∃ entry ∈ header.includes .runtime none,
      entry.Leads copy last (copy.node last twin) other) ↔
    ∃ provider, library.Supplies registry id provider ∧
      StandsFor library registry module copy last provider other := by
  have here := Library.node?_of_lt counterpart.frozen last
  have declares := rebuilt.planted.accounted twin _ header here stated
  have names := (counterpart.written_of_header stated).names plain
  have resolved : ∀ entry ∈ header.includes .runtime none, entry.mode = .uri →
      (copy.node last twin).properties.resolve entry.value = entry.value := fun entry member mode =>
    resolve_of_not_holdsPair _
      (literal entry (Declaration.includes_of_declares declares member) mode)
  constructor
  · rintro ⟨entry, member, leads⟩
    obtain ⟨provider, supplied, named⟩ := (names _ _).mp ⟨entry, member, rfl, rfl⟩
    refine ⟨provider, supplied, ?_⟩
    rcases namedBy_iff.mp named with ⟨inside, mode, value⟩ | ⟨apart, mode, product, listed, value⟩
    · obtain ⟨found, inner⟩ := rebuilt.exists_counterpart inside
      rw [leads.unique (rebuilt.leads_counterpart inner last mode value _)]
      exact .inside inner
    · rw [Include.leads_uri_iff mode, resolved entry member mode, value] at leads
      exact .outside apart listed leads
  · rintro ⟨provider, supplied, inner | ⟨apart, product, found⟩⟩
    · obtain ⟨entry, member, mode, value⟩ :=
        (names _ _).mpr ⟨provider, supplied, .path inner.inside⟩
      exact ⟨entry, member, rebuilt.leads_counterpart inner last mode value _⟩
    · obtain ⟨entry, member, mode, value⟩ :=
        (names _ _).mpr ⟨provider, supplied, .coordinate apart product⟩
      refine ⟨entry, member, ?_⟩
      rwa [Include.leads_uri_iff mode, resolved entry member mode, value]

theorem replica_counterpart (made : library.arena.Made library.ground)
    (named : (library.node registry id).isAnonymous = false) :
    (library.node registry id).Replica (copy.node last twin) := by
  obtain ⟨other, copied, written⟩ := counterpart.written
  obtain ⟨header, stated⟩ :=
    Option.isSome_iff_exists.mp (rebuilt.isSome_header counterpart.inside)
  have there := known_of_atOrBelow rebuilt.known counterpart.inside
  obtain ⟨above, up⟩ := exists_parent rebuilt.tree rebuilt.reached there
    (rebuilt.isRoot_eq_false counterpart.inside)
  have frozen := lt_frozen_of_named rebuilt.tree rebuilt.reached named up
  have follows := made.follows (Library.node?_of_lt frozen registry) stated
  have also := rebuilt.planted.made.follows (Library.node?_of_lt counterpart.frozen .empty) copied
  rw [Library.node_eq_of_lt counterpart.frozen last .empty]
  refine Node.replica_of_follows stated follows ?_ copied also written.stated counterpart.path
  simpa [Node.isAnonymous, stated] using named

end

theorem exists_include_of_cites {urn : String} (cites : copy.Cites urn) :
    ∃ id twin header entry, Counterpart library registry module copy id twin ∧
      (copy.node .empty twin).header = some header ∧ entry ∈ header.includes .runtime none ∧
      exported.Includes entry ∧ entry.mode = .uri ∧
      (copy.node .empty twin).properties.resolve entry.value = urn := by
  obtain ⟨twin, frozen, header, dependency, entry, stated, depends, member, mode, same⟩ := cites
  have declares := rebuilt.planted.accounted twin _ header (Library.node?_of_lt frozen .empty) stated
  have included : entry ∈ header.includes dependency.scope none :=
    Header.mem_includes_iff.mpr ⟨⟨dependency, depends, rfl, member⟩, rfl⟩
  obtain ⟨id, counterpart, _, runtime⟩ :=
    rebuilt.exists_counterpart_of_includes frozen stated included
  exact ⟨id, twin, header, entry, counterpart, stated, runtime,
    Declaration.includes_of_declares declares included, mode, same⟩

theorem complete_of_parse (readable : ∀ urn, copy.Cites urn →
    ∃ coordinate, Coordinate.parse urn = .ok coordinate) : copy.Complete := by
  intro twin frozen header tier category entry stated member
  by_cases mode : entry.mode = .uri
  · obtain ⟨coordinate, read⟩ := readable _ (cites_of_includes .refl stated member mode)
    exact Query.succeeds_included_of_parse mode read
  · refine Query.succeeds_included_of_resolve mode fun last => ?_
    obtain ⟨id, counterpart, plain, runtime⟩ :=
      rebuilt.exists_counterpart_of_includes frozen stated member
    obtain ⟨provider, _, named⟩ := ((counterpart.written_of_header stated).names plain _ _).mp
      ⟨entry, runtime, rfl, rfl⟩
    rcases namedBy_iff.mp named with ⟨inside, ref, value⟩ | ⟨_, uri, _⟩
    · obtain ⟨found, inner⟩ := rebuilt.exists_counterpart inside
      exact ⟨found, rebuilt.leads_counterpart inner last ref value _⟩
    · exact absurd uri mode

section
variable (counterpart : Counterpart library registry module copy id twin) (literal : exported.Literal)
  (plain : (library.node registry id).isModule = false) {last final : Registry}
  (reached : Reached copy last) {ids : List ResourceId} {other : ResourceId}
include counterpart literal plain reached

theorem mem_declared_iff
    (given : (Query.declared twin .runtime none).answer copy last = (.ok ids, final)) :
    other ∈ ids ↔ ∃ provider, library.Supplies registry id provider ∧
      StandsFor library registry module copy final provider other := by
  obtain ⟨header, stated, _⟩ := counterpart.written
  have same := Library.node_eq_of_lt counterpart.frozen
  have isPlain := rebuilt.isModule_counterpart counterpart last
  rw [plain] at isPlain
  rw [Query.mem_declared_iff rebuilt.planted.isTree reached (same last .empty ▸ stated) given .refl,
    Node.children_of_plain isPlain, same last final,
    rebuilt.leads_iff_standsFor counterpart final literal plain (same final .empty ▸ stated)]
  simp

theorem standsFor_of_declared {provider next : ResourceId}
    (supplied : library.Supplies registry id provider)
    (stands : StandsFor library registry module copy last provider other)
    (given : (Query.declared other .runtime none).answer copy last = (.ok ids, final))
    (member : next ∈ ids) :
    ∃ inner, library.Supplies registry id inner ∧
      StandsFor library registry module copy final inner next := by
  obtain ⟨_, _, written⟩ := counterpart.written
  rcases stands with twin | ⟨_, _, found⟩
  · obtain ⟨header, stated, also⟩ := twin.written
    cases isModule : (library.node registry provider).isModule with
    | false =>
      obtain ⟨inner, further, stands⟩ :=
        (rebuilt.mem_declared_iff twin literal isModule reached given).mp member
      exact ⟨inner, written.supplies_trans rebuilt.tree rebuilt.reached plain supplied also isModule
        further, stands⟩
    | true =>
      rw [Library.node_eq_of_lt twin.frozen .empty last] at stated
      rcases (Query.mem_declared_iff rebuilt.planted.isTree reached stated given .refl).mp member with
        ⟨entry, inside, _⟩ | ⟨_, _, below⟩
      · obtain ⟨⟨dependency, listed, _⟩, _⟩ := Header.mem_includes_iff.mp inside
        rw [also.module isModule] at listed
        cases listed
      · obtain ⟨inner, child, above⟩ := rebuilt.counterpart_of_child twin last below
        exact ⟨inner, written.supplies_child rebuilt.tree rebuilt.reached plain supplied
          (rebuilt.isSome_header twin.inside) child, .inside above⟩
  · obtain ⟨_, _, _, isPlain, coordinate, read, _⟩ := reached.leaf found
    have synthetic :=
      World.synthetic_of_within reached ⟨coordinate, _, read, found, Nat.zero_le _, rfl⟩
    rw [Query.answer_declared_of_bare synthetic.bare isPlain] at given
    cases given
    cases member

/-- Expanded RUNTIME providers of a plain counterpart stand for the providers of its original. -/
theorem mem_iff_standsFor
    (expansion : Expansion copy last .runtime (Query.localProviders twin .runtime none) ids) :
    other ∈ ids ↔ ∃ provider, library.Supplies registry id provider ∧
      StandsFor library registry module copy last provider other := by
  rw [Query.localProviders_eq_declared (by decide)] at expansion
  obtain ⟨starts, settled⟩ := expansion.started
  obtain ⟨final, given⟩ := settled last .refl
  have grows := (Query.growing_declared twin .runtime none).grows given
  have listed : ∀ first, first ∈ starts ↔ ∃ provider, library.Supplies registry id provider ∧
      StandsFor library registry module copy final provider first := fun first =>
    rebuilt.mem_declared_iff counterpart literal plain reached given
  constructor
  · intro member
    obtain ⟨first, found, way⟩ := (expansion.mem_iff other).mp member
    clear member
    induction way with
    | refl =>
      obtain ⟨provider, supplied, stands⟩ := (listed first).mp (settled.finds_iff.mp found)
      have known := expansion.known _ (expansion.mem_of_finds found)
      exact ⟨provider, supplied, stands.earlier reached grows known⟩
    | tail before step ih =>
      obtain ⟨provider, supplied, stands⟩ := ih
      obtain ⟨others, after, asked, member⟩ := expansionStep_runtime_iff.mp step
      obtain ⟨inner, further, also⟩ := rebuilt.standsFor_of_declared counterpart literal plain reached
        supplied stands asked member
      have there := expansion.mem_of_step ((expansion.mem_iff _).mpr ⟨first, found, before⟩) step
      have onward := (Query.growing_declared _ .runtime none).grows asked
      exact ⟨inner, further, also.earlier reached onward (expansion.known _ there)⟩
  · rintro ⟨provider, supplied, stands⟩
    refine expansion.mem_of_finds (settled.finds_iff.mpr ((listed other).mpr ?_))
    exact ⟨provider, supplied, stands.later grows⟩

end
end Rebuilt

theorem Library.exists_rebuilt {settings : Settings} {host : Host} {load : ImportLoader}
    {catalog : Catalog} {library : Library}
    (built : build settings host load catalog = .ok library) (session : List Request)
    {module : ResourceId} (isModule : (library.node (library.after session) module).isModule = true)
    {exported : Declaration} {grown : Registry}
    (answered : (Query.exportModule module).answer library (library.after session) =
      (.ok exported, grown)) (later : String) :
    ∃ copy, build settings later .none (Catalog.empty.withResource exported) = .ok copy ∧
      Rebuilt library grown module exported copy := by
  have tree := isTree_of_build built
  have reached := library.reached_after session
  have known : module < (library.after session).next library := by
    refine Library.known_of_ne_absent fun absent => ?_
    rw [absent] at isModule
    cases isModule
  have grows := (Query.growing_exportModule module).grows answered
  have shown := exported_of_exportModule tree reached known answered
  obtain ⟨copy, copied⟩ := exists_build_of_plantable settings later .none shown.plantable
  exact ⟨copy, copied, tree, declared_of_build built, reached.grows grows,
    Nat.lt_of_lt_of_le known grows.next_le, shown, planted_of_build copied shown.plantable⟩

end ResourceLibrary
