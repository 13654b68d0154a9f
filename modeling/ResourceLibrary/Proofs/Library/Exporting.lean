import ResourceLibrary.Proofs.Arena.Planting
import ResourceLibrary.Proofs.Library.Includes

/-!
What an export says. Main statement: it declares each resource at or below the module once, at its
own path, and each plain one includes exactly what its expanded RUNTIME providers are named by: their
paths inside the module, the coordinates of their products elsewhere.
-/

namespace ResourceLibrary
open Registry (Grows Reached)

/-- What a resource needs at RUNTIME by includes of an exported category, and all that is reached
from there. -/
def Library.Supplies (library : Library) (registry : Registry) (id provider : ResourceId) : Prop :=
  ∃ category ∈ Category.exportOrder,
    Query.Finds library registry (Query.tierProviders id .runtime true (some category)) provider

/-- How an export of a module names a provider: by its path if it lies there, else by the
coordinates of all its products. -/
inductive NamedBy (nodes : ResourceId → Node) (boundary provider : ResourceId) :
    IncludeMode → String → Prop
  | path (inside : AtOrBelow nodes boundary provider) :
    NamedBy nodes boundary provider .ref (nodes provider).path.text
  | coordinate {product : Deliverable} (outside : ¬AtOrBelow nodes boundary provider)
    (member : product ∈ (nodes provider).deliverables) :
    NamedBy nodes boundary provider .uri product.coordinate.text

theorem namedBy_iff {nodes : ResourceId → Node} {boundary provider : ResourceId}
    {mode : IncludeMode} {value : String} :
    NamedBy nodes boundary provider mode value ↔
      AtOrBelow nodes boundary provider ∧ mode = .ref ∧ value = (nodes provider).path.text ∨
      ¬AtOrBelow nodes boundary provider ∧ mode = .uri ∧
        ∃ product ∈ (nodes provider).deliverables, value = product.coordinate.text := by
  constructor
  · rintro (inside | ⟨outside, member⟩)
    · exact .inl ⟨inside, rfl, rfl⟩
    · exact .inr ⟨outside, rfl, _, member, rfl⟩
  · rintro (⟨inside, rfl, rfl⟩ | ⟨outside, rfl, product, member, rfl⟩)
    · exact .path inside
    · exact .coordinate outside member

def Header.bare (header : Header) : Header := { header with dependencies := [] }

theorem Header.eq_of_bare {header other : Header} (same : header.bare = other) {α : Type}
    (field : Header → α) (kept : ∀ header : Header, field header.bare = field header) :
    field header = field other :=
  (kept header).symm.trans (congrArg field same)

/-- What an export of a module states of a resource in it. -/
structure Written (library : Library) (registry : Registry) (boundary id : ResourceId)
    (header : Header) : Prop where
  stated : header.bare = (library.node registry id).exportHeader
  scopes : ∀ dependency ∈ header.dependencies, dependency.scope = .runtime
  module : (library.node registry id).isModule = true → header.dependencies = []
  supplied : (library.node registry id).isModule = false → ∀ category ∈ Category.exportOrder,
    ∃ ids, Query.Settled library registry
        (Query.tierProviders id .runtime true (some category)) ids ∧
      Expansion library registry .runtime (Query.localProviders id .runtime (some category)) ids
  names : (library.node registry id).isModule = false → ∀ mode value,
    (∃ entry ∈ header.includes .runtime none, entry.mode = mode ∧ entry.value = value) ↔
      ∃ provider, library.Supplies registry id provider ∧
        NamedBy (library.node registry) boundary provider mode value

namespace Node
variable (node : Node)

@[simp] theorem name_exportHeader : node.exportHeader.name = node.name := by
  unfold exportHeader
  cases node.header <;> rfl

@[simp] theorem version_exportHeader : node.exportHeader.version = node.version := by
  unfold exportHeader
  cases node.header <;> rfl

@[simp] theorem basedir_exportHeader : node.exportHeader.basedir = none := by
  unfold exportHeader
  cases node.header <;> rfl

@[simp] theorem classifier_exportHeader : node.exportHeader.classifier = .standard := by
  unfold exportHeader
  cases node.header <;> rfl

@[simp] theorem isModule_exportHeader : node.exportHeader.isModule = node.isModule := by
  unfold exportHeader Header.isModule
  cases node.isModule <;> cases node.header <;> rfl

@[simp] theorem dependencies_exportHeader : node.exportHeader.dependencies = [] := by
  unfold exportHeader
  cases node.header <;> rfl

@[simp] theorem bare_exportHeader : node.exportHeader.bare = node.exportHeader := by
  unfold exportHeader
  cases node.header <;> rfl

end Node

theorem mem_foldl_addInclude {entries items : List Include} {mode : IncludeMode} {value : String} :
    (∃ entry ∈ items.foldl addInclude entries, entry.mode = mode ∧ entry.value = value) ↔
      ∃ entry ∈ entries ++ items, entry.mode = mode ∧ entry.value = value := by
  induction items generalizing entries with
  | nil => simp
  | cons item rest ih =>
    rw [List.foldl_cons, ih]
    unfold addInclude
    simp only
    split
    · next present =>
      obtain ⟨same, listed, alike⟩ := List.any_eq_true.mp present
      simp only [Bool.and_eq_true, decide_eq_true_eq] at alike
      constructor
      · rintro ⟨entry, member, names⟩
        exact ⟨entry, by grind, names⟩
      · rintro ⟨entry, member, names⟩
        by_cases again : entry = item
        · refine ⟨same, by simp [listed], ?_⟩
          rw [alike.1, alike.2, ← again]
          exact names
        · exact ⟨entry, by grind, names⟩
    · simp

theorem Header.includes_of_exported (header : Header) (entries : List Include) :
    ({ header with dependencies := if entries.isEmpty then [] else [⟨.runtime, entries⟩] } :
      Header).includes .runtime none = entries := by
  cases entries with
  | nil => rfl
  | cons entry rest => simp [Header.includes]

section
variable {library : Library} (tree : library.arena.IsTree) {registry : Registry}
  (reached : Reached library registry)
include tree reached

theorem mem_exportIncludes_iff {boundary provider : ResourceId}
    (known : provider < registry.next library) {category : Category} {mode : IncludeMode}
    {value : String} :
    (∃ entry ∈ exportIncludes (library.node registry) boundary category
        (library.node registry provider), entry.mode = mode ∧ entry.value = value) ↔
      NamedBy (library.node registry) boundary provider mode value := by
  unfold exportIncludes
  by_cases inside : AtOrBelow (library.node registry) boundary provider
  · rw [if_pos ((liesIn_iff_atOrBelow tree reached known).mpr inside)]
    constructor
    · rintro ⟨entry, member, rfl, rfl⟩
      obtain rfl : entry = _ := by simpa using member
      exact .path inside
    · rintro (inside | ⟨outside, _⟩)
      · exact ⟨_, List.mem_singleton.mpr rfl, rfl, rfl⟩
      · exact absurd inside outside
  · rw [if_neg (fun lies => inside ((liesIn_iff_atOrBelow tree reached known).mp lies))]
    simp only [List.mem_map, exists_exists_and_eq_and]
    constructor
    · rintro ⟨product, member, rfl, rfl⟩
      exact .coordinate inside member
    · rintro (lies | ⟨_, member⟩)
      · exact absurd lies inside
      · exact ⟨_, member, rfl, rfl⟩

theorem namedBy_later_iff {boundary provider : ResourceId}
    (known : provider < registry.next library) {last : Registry}
    (grows : Grows library registry last) {mode : IncludeMode} {value : String} :
    NamedBy (library.node last) boundary provider mode value ↔
      NamedBy (library.node registry) boundary provider mode value := by
  have place : AtOrBelow (library.node last) boundary provider ↔
      AtOrBelow (library.node registry) boundary provider :=
    atOrBelow_later_iff tree reached known grows
  rw [namedBy_iff, namedBy_iff, place, grows.node known]

end

namespace Query
variable {library : Library} (tree : library.arena.IsTree)

structure Gathered (library : Library) (registry : Registry) (boundary id : ResourceId)
    (category : Category) (entries : List Include) (ids : List ResourceId) : Prop where
  settled : Settled library registry (tierProviders id .runtime true (some category)) ids
  expansion : Expansion library registry .runtime (localProviders id .runtime (some category)) ids
  names : ∀ mode value, (∃ entry ∈ entries, entry.mode = mode ∧ entry.value = value) ↔
    ∃ provider ∈ ids, NamedBy (library.node registry) boundary provider mode value

theorem exists_include_of_gathered {registry : Registry} {boundary id : ResourceId}
    {found : List (List Include)} (gathered : List.Forall₂ (fun category entries =>
      ∃ ids, Gathered library registry boundary id category entries ids) Category.exportOrder found)
    (mode : IncludeMode) (value : String) :
    (∃ entry ∈ found.flatten, entry.mode = mode ∧ entry.value = value) ↔
      ∃ provider, library.Supplies registry id provider ∧
        NamedBy (library.node registry) boundary provider mode value := by
  constructor
  · rintro ⟨entry, member, names⟩
    obtain ⟨entries, listed, inside⟩ := List.mem_flatten.mp member
    obtain ⟨category, among, ids, gathered⟩ := exists_mem_of_forall₂ gathered.flip listed
    obtain ⟨provider, found, named⟩ := (gathered.names mode value).mp ⟨entry, inside, names⟩
    exact ⟨provider, ⟨category, among, gathered.settled.finds_iff.mpr found⟩, named⟩
  · rintro ⟨provider, ⟨category, among, finds⟩, named⟩
    obtain ⟨entries, listed, ids, gathered⟩ := exists_mem_of_forall₂ gathered among
    obtain ⟨entry, inside, names⟩ := (gathered.names mode value).mpr
      ⟨provider, gathered.settled.finds_iff.mp finds, named⟩
    exact ⟨entry, List.mem_flatten.mpr ⟨entries, listed, inside⟩, names⟩

section
variable {before after final : Registry} (reached : Reached library before)
  (rest : Grows library after final) {boundary id : ResourceId}
  (known : id < before.next library)
include tree reached rest known

theorem gathered_of_tierProviders {category : Category} {ids : List ResourceId}
    (given : (tierProviders id .runtime true (some category)).answer library before =
      (.ok ids, after)) :
    Gathered library final boundary id category
      (ids.map fun provider => exportIncludes (library.node after) boundary category
        (library.node after provider)).flatten ids := by
  have grows : Grows library before after :=
    Growing.grows (fun _ => moving_tierProviders id .runtime true (some category)) given
  have steady := steady_localProviders tree reached .runtime (some category)
  have expansion := expansion_of_expanded tree reached steady known given
  have settled : Settled library after (tierProviders id .runtime true (some category)) ids := by
    have same : ∀ world, (World.diagonal reached).Later world → ∀ i j,
        (World.diagonal reached).Near world i j → world.Same i j :=
      fun world since i j near => near.same since
    refine settled_of_agree reached same (fun world since _ => ?_) given grows
    have near := World.lasting_near _ since (.inl (World.diagonal_same reached known))
    exact agree_tierProviders tree since near .runtime true (some category)
  refine ⟨settled.later rest, expansion.later rest, fun mode value => ?_⟩
  have here := reached.grows grows
  simp only [List.mem_flatten, List.mem_map, exists_exists_and_eq_and]
  constructor
  · rintro ⟨entry, ⟨provider, member, inside⟩, names⟩
    have inner := expansion.known provider member
    refine ⟨provider, member, (namedBy_later_iff tree here inner rest).mpr ?_⟩
    exact (mem_exportIncludes_iff tree here inner).mp ⟨entry, inside, names⟩
  · rintro ⟨provider, member, named⟩
    have inner := expansion.known provider member
    obtain ⟨entry, inside, names⟩ : ∃ entry ∈ exportIncludes (library.node after) boundary category
        (library.node after provider), entry.mode = mode ∧ entry.value = value :=
      (mem_exportIncludes_iff tree here inner).mpr ((namedBy_later_iff tree here inner rest).mp named)
    exact ⟨entry, ⟨provider, member, inside⟩, names⟩

theorem forall₂_gathered_of_mapM {found : List (List Include)}
    (asked : (Category.exportOrder.mapM fun category => do
      let providers ← tierProviders id .runtime true (some category)
      let nodes ← nodes
      return (providers.map fun id =>
        exportIncludes nodes boundary category (nodes id)).flatten).answer library before =
          (.ok found, after)) :
    List.Forall₂ (fun category entries =>
      ∃ ids, Gathered library final boundary id category entries ids) Category.exportOrder found := by
  have each := forall₂_of_answer_mapM (fun category _ =>
    moving_bind (moving_tierProviders id .runtime true (some category)) fun _ =>
      moving_bind moving_nodes fun _ => moving_pure _) asked
  refine each.imp ?_
  rintro category entries ⟨first, last, begun, answered, onward⟩
  obtain ⟨ids, latter, providers, shown⟩ := answer_bind_eq_ok_iff.mp answered
  rw [answer_bind, answer_nodes] at shown
  cases shown
  exact ⟨ids, gathered_of_tierProviders tree (reached.grows begun) (onward.trans rest)
    (Nat.lt_of_lt_of_le known begun.next_le) providers⟩

theorem written_of_exportDependencies (plain : (library.node before id).isModule = false)
    {dependencies : List Dependency}
    (given : (exportDependencies boundary id).answer library before = (.ok dependencies, after)) :
    Written library final boundary id
      { (library.node final id).exportHeader with dependencies := dependencies } := by
  have grows : Grows library before after :=
    Growing.grows (fun _ => moving_exportDependencies boundary id) given
  have same := Grows.node (grows.trans rest) known
  obtain ⟨found, middle, asked, done⟩ := answer_bind_eq_ok_iff.mp given
  cases done
  have gathered := forall₂_gathered_of_mapM tree reached rest known asked
  constructor
  case stated => exact Node.bare_exportHeader _
  case scopes =>
    intro dependency member
    simp only at member
    split at member
    · cases member
    · rw [List.mem_singleton.mp member]
  case module =>
    intro module
    rw [same, plain] at module
    cases module
  case supplied =>
    intro _ category member
    obtain ⟨entries, _, ids, gathered⟩ := exists_mem_of_forall₂ gathered member
    exact ⟨ids, gathered.settled, gathered.expansion⟩
  case names =>
    intro _ mode value
    rw [Header.includes_of_exported, mem_foldl_addInclude, List.nil_append]
    exact exists_include_of_gathered gathered mode value

end
end Query

/-- A declaration of all that lies at or below a node. -/
structure Transcript (library : Library) (registry : Registry) (boundary id : ResourceId)
    (declaration : Declaration) : Prop where
  named : declaration.header.name = (library.node registry id).name
  plantable : declaration.Plantable
  sound : ∀ above path header,
    above.child (library.node registry id).name = (library.node registry id).path →
    Declares above declaration path header →
    ∃ inner, AtOrBelow (library.node registry) id inner ∧
      (library.node registry inner).path = path ∧ Written library registry boundary inner header
  complete : ∀ above,
    above.child (library.node registry id).name = (library.node registry id).path →
    ∀ inner, AtOrBelow (library.node registry) id inner →
      ∃ header, Declares above declaration (library.node registry inner).path header

section
variable {library : Library} (tree : library.arena.IsTree) {registry : Registry}
  (reached : Reached library registry) {boundary id above : ResourceId}
  (up : (library.node registry id).parent = some above)
include tree reached up

theorem transcript_of_written {header : Header}
    (plain : (library.node registry id).isModule = false)
    (written : Written library registry boundary id header) :
    Transcript library registry boundary id ⟨header, []⟩ := by
  have stated := @Header.eq_of_bare _ _ written.stated
  have name := (stated (·.name) fun _ => rfl).trans (Node.name_exportHeader _)
  have basedir := (stated (·.basedir) fun _ => rfl).trans (Node.basedir_exportHeader _)
  have classifier := (stated (·.classifier) fun _ => rfl).trans (Node.classifier_exportHeader _)
  have segment := (joined_of_parent tree reached up).2.segment
  refine ⟨name, ?plantable, ?sound, ?complete⟩
  case plantable =>
    refine .intro (name ▸ segment) basedir ?_ (.inr rfl) .nil (by simp)
    simp [Header.isProject, classifier, Classifier.standard]
  case sound =>
    intro outer path other place declares
    cases declares with
    | here => exact ⟨id, .refl, by rw [name, place], written⟩
    | inside member => cases member
  case complete =>
    intro outer place inner way
    rcases (atOrBelow_iff_child tree reached (Library.known_of_parent up)).mp way with
      rfl | ⟨child, member, _⟩
    · refine ⟨header, ?_⟩
      rw [← place, ← name]
      exact .here ..
    · rw [Node.children_of_plain plain] at member
      cases member

theorem transcript_of_module {nested : List Declaration}
    (module : (library.node registry id).isModule = true)
    (each : List.Forall₂ (Transcript library registry boundary)
      (library.node registry id).children nested) :
    Transcript library registry boundary id ⟨(library.node registry id).exportHeader, nested⟩ := by
  have known := Library.known_of_parent up
  have segment := (joined_of_parent tree reached up).2.segment
  have place : ∀ child ∈ (library.node registry id).children,
      (library.node registry id).path.child (library.node registry child).name =
        (library.node registry child).path := fun child member =>
    (joined_of_parent tree reached ((mem_children_iff tree reached known).mp member)).2.path.symm
  refine ⟨by simp, ?plantable, ?sound, ?complete⟩
  case plantable =>
    refine .intro (by simpa using segment) (by simp) ?_ (.inl (by simpa using module)) ?_ ?_
    · simp [Header.isProject, Classifier.standard]
    · have names : (nested.map (·.header.name)) = (library.node registry id).children.map
          fun child => (library.node registry child).name := by
        rw [← List.forall₂_eq_eq_eq, List.forall₂_map_left_iff, List.forall₂_map_right_iff]
        exact each.flip.imp fun _ _ transcript => transcript.named
      rw [names]
      exact nodup_child_names tree reached known
    · intro inner member
      obtain ⟨child, _, transcript⟩ := exists_mem_of_forall₂ each.flip member
      exact transcript.plantable
  case sound =>
    intro outer path header located declares
    cases declares with
    | here =>
      refine ⟨id, .refl, by simp [located], by simp, ?_, fun _ => by simp, ?_, ?_⟩
      · simp
      · exact fun plain => by simp [module] at plain
      · exact fun plain => by simp [module] at plain
    | inside member below =>
      obtain ⟨child, listed, transcript⟩ := exists_mem_of_forall₂ each.flip member
      rw [Node.name_exportHeader, located] at below
      obtain ⟨inner, way, path, written⟩ := transcript.sound _ _ _ (place child listed) below
      exact ⟨inner, way.tail ((mem_children_iff tree reached known).mp listed), path, written⟩
  case complete =>
    intro outer located inner way
    rcases (atOrBelow_iff_child tree reached known).mp way with rfl | ⟨child, listed, below⟩
    · refine ⟨(library.node registry inner).exportHeader, ?_⟩
      rw [← located]
      simpa using Declares.here outer (library.node registry inner).exportHeader nested
    · obtain ⟨declaration, member, transcript⟩ := exists_mem_of_forall₂ each listed
      obtain ⟨header, declares⟩ := transcript.complete _ (place child listed) inner below
      refine ⟨header, .inside member ?_⟩
      rwa [Node.name_exportHeader, located]

end

/-- Numbers grow downwards, so the depth is not used up before the leaves. -/
theorem transcript_of_exportNode {library : Library} (tree : library.arena.IsTree)
    {start : Registry} (reached : Reached library start) {boundary : ResourceId} (bound : Nat)
    {id above : ResourceId} {before after final : Registry} {declaration : Declaration}
    (since : Grows library start before) (up : (library.node start id).parent = some above)
    (space : start.next library < bound + id)
    (given : (Query.exportNode boundary bound id).answer library before = (.ok declaration, after))
    (rest : Grows library after final) :
    Transcript library final boundary id declaration := by
  induction bound generalizing id above before after declaration with
  | zero =>
    have known := Library.known_of_parent up
    unfold ResourceId at *
    omega
  | succ bound ih =>
    have known := Library.known_of_parent up
    have grows := Query.Growing.grows (fun _ => Query.moving_exportNode boundary (bound + 1) id) given
    have begun := reached.grows since
    have later : Reached library final := begun.grows (grows.trans rest)
    have first := since.node known
    have last := Grows.node (since.trans (grows.trans rest)) known
    have above := up
    rw [← last] at above
    rw [Query.exportNode, Query.answer_bind, Query.answer_node] at given
    simp only [first] at given
    split at given
    · next module =>
      obtain ⟨nested, middle, asked, done⟩ := Query.answer_bind_eq_ok_iff.mp given
      cases done
      have each := Query.forall₂_of_answer_mapM
        (fun child _ => Query.moving_exportNode boundary bound child) asked
      have inside := (List.forall₂_and_left (p := (· ∈ (library.node start id).children)) _ _).mpr
        ⟨fun _ member => member, each⟩
      rw [← last] at module ⊢
      refine transcript_of_module tree later above module ?_
      rw [last]
      refine inside.imp ?_
      rintro child inner ⟨member, early, late, begun, answered, onward⟩
      have below := (mem_children_iff tree reached known).mp member
      have deeper := (lt_of_mem_children tree reached known member).1
      refine ih (since.trans begun) below ?_ answered (onward.trans rest)
      unfold ResourceId at *
      omega
    · next plain =>
      obtain ⟨dependencies, middle, asked, done⟩ := Query.answer_bind_eq_ok_iff.mp given
      cases done
      rw [Bool.not_eq_true] at plain
      have written := Query.written_of_exportDependencies tree begun rest
        (Nat.lt_of_lt_of_le known since.next_le) (first ▸ plain) asked
      rw [last] at written
      rw [← last] at plain
      exact transcript_of_written tree later above plain written

structure Exported (library : Library) (registry : Registry) (module : ResourceId)
    (exported : Declaration) : Prop where
  plantable : exported.Plantable
  sound : ∀ path header, Declares .root exported path header →
    (∃ inner, AtOrBelow (library.node registry) module inner ∧
      (library.node registry inner).path = path ∧ Written library registry module inner header) ∨
    path.length < (library.node registry module).path.length ∧ header.dependencies = []
  complete : ∀ inner, AtOrBelow (library.node registry) module inner →
    ∃ header, Declares .root exported (library.node registry inner).path header

section
variable {library : Library} (tree : library.arena.IsTree) {registry : Registry}
  (reached : Reached library registry) {id : ResourceId}
include tree reached

theorem transcript_of_exportModule (known : id < registry.next library) {exported : Declaration}
    {grown : Registry}
    (given : (Query.exportModule id).answer library registry = (.ok exported, grown)) :
    Grows library registry grown ∧ (∃ above, (library.node grown id).parent = some above) ∧
      ∃ declaration, Transcript library grown id id declaration ∧
        exported = declaration.wrap (library.node grown id).path.segments.dropLast := by
  have grows := Query.Growing.grows (Query.growing_exportModule id) given
  have same := grows.node known
  rw [Query.exportModule, Query.answer_bind, Query.answer_nodes] at given
  simp only at given
  split at given
  · cases given
  · next inner =>
    rw [Bool.not_eq_true] at inner
    obtain ⟨above, up⟩ := exists_parent tree reached known inner
    rw [Query.answer_bind, Query.answer_depth] at given
    obtain ⟨declaration, middle, answered, done⟩ := Query.answer_bind_eq_ok_iff.mp given
    have joined := joined_of_parent tree reached up
    have transcript : ∀ {last}, Grows library middle last →
        Transcript library last id id declaration := by
      intro last rest
      refine transcript_of_exportNode tree reached _ .refl up ?_ answered rest
      exact Nat.lt_add_right id (Nat.lt_succ_self _)
    rw [same]
    refine ⟨grows, ⟨above, up⟩, declaration, ?_⟩
    split at done
    · next outermost =>
      cases done
      have isRoot : (library.node registry above).isRoot = true := by
        rw [enclosing?, up] at outermost
        simpa using outermost
      refine ⟨transcript .refl, ?_⟩
      rw [joined.2.path, path_of_isRoot tree reached joined.1 isRoot]
      rfl
    · rw [Query.answer_ofExcept] at done
      obtain ⟨placed, rfl⟩ := Prod.mk.inj done
      refine ⟨transcript .refl, ?_⟩
      obtain ⟨path, read, rfl⟩ := eq_wrap_of_placedAt placed
      obtain ⟨arena, grove, here⟩ := exists_grove tree reached known
      have segments := grove.isTree.isSegment_of_mem_path here
      rw [ResourcePath.parse_text (by simp [joined.2.path, ResourcePath.child]) segments] at read
      cases read
      have named := (transcript .refl).named
      rw [same] at named
      have name : (library.node registry id).path.name = declaration.header.name := named.symm
      rw [Declaration.edit, name]
      cases declaration
      rfl

/-- What is exported declares each resource of the module at its own path, and nothing else there. -/
theorem exported_of_exportModule (known : id < registry.next library) {exported : Declaration}
    {grown : Registry}
    (given : (Query.exportModule id).answer library registry = (.ok exported, grown)) :
    Exported library grown id exported := by
  obtain ⟨grows, ⟨above, up⟩, declaration, transcript, rfl⟩ :=
    transcript_of_exportModule tree reached known given
  have later := reached.grows grows
  have joined := (joined_of_parent tree later up).2
  obtain ⟨arena, grove, here⟩ := exists_grove tree later (Library.known_of_parent up)
  have segments := grove.isTree.isSegment_of_mem_path here
  have split : (library.node grown id).path.segments =
      (library.node grown above).path.segments ++ [(library.node grown id).name] :=
    congrArg ResourcePath.segments joined.path
  have outer : (library.node grown id).path.segments.dropLast =
      (library.node grown above).path.segments := by
    rw [split, List.dropLast_concat]
  rw [outer]
  refine ⟨?plantable, ?sound, ?complete⟩
  case plantable =>
    refine transcript.plantable.wrap fun name member => segments name ?_
    rw [split]
    exact List.mem_append_left _ member
  case sound =>
    intro path header declares
    rcases declares.of_wrap with own | ⟨shorter, name, rfl⟩
    · exact .inl (transcript.sound _ path header joined.path.symm own)
    · refine .inr ⟨?_, rfl⟩
      have bound := shorter.length_le
      simp only [ResourcePath.root, List.nil_append] at bound
      rw [ResourcePath.length, ResourcePath.length, split, List.length_append, List.length_singleton]
      exact Nat.lt_succ_of_le bound
  case complete =>
    intro inner way
    obtain ⟨header, declares⟩ := transcript.complete _ joined.path.symm inner way
    have fromRoot : Declares
        ⟨ResourcePath.root.segments ++ (library.node grown above).path.segments⟩ declaration
        (library.node grown inner).path header := declares
    exact ⟨header, fromRoot.wrap⟩

end
end ResourceLibrary
