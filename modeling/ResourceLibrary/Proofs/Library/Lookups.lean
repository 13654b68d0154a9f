import ResourceLibrary.Proofs.Library.Choice
import ResourceLibrary.Proofs.Library.Includes
import ResourceLibrary.Proofs.Text.Segments

/-!
References walked name by name. Main statement: a reference of two parts finds what the second part
finds in the module that the first one names, a reference fails where the walk meets a plain resource
or misses a name, and a key leads where its value leads from the enclosing module.
-/

namespace ResourceLibrary
open Registry (Reached)

/-- The names lead down from a node, each to a child of the one before. -/
inductive Names (nodes : ResourceId → Node) : ResourceId → List String → ResourceId → Prop
  | here (id : ResourceId) : Names nodes id [] id
  | down {outer child inner : ResourceId} {name : String} {names : List String}
    (below : (nodes outer).child? name = some child) (rest : Names nodes child names inner) :
    Names nodes outer (name :: names) inner

/-- What a walk down by names comes to: the resource that they name, a plain resource that others
should stand in, or a module that a name is missing from. -/
inductive Walked (nodes : ResourceId → Node) (start : ResourceId) (reference : String)
    (names : List String) : Except Failure ResourceId → Prop
  | found {id : ResourceId} (way : Names nodes start names id) :
    Walked nodes start reference names (.ok id)
  | plain {front back : List String} {leaf : ResourceId} (parts : names = front ++ back)
    (more : back ≠ []) (way : Names nodes start front leaf)
    (plain : (nodes leaf).isModule = false) :
    Walked nodes start reference names
      (.error (.notAModule ("/".intercalate front) (nodes start).path.text))
  | missing {front back : List String} {name : String} {inner : ResourceId}
    (parts : names = front ++ name :: back) (way : Names nodes start front inner)
    (module : (nodes inner).isModule = true) (absent : (nodes inner).child? name = none) :
    Walked nodes start reference names (.error (.resourceNotFound reference))

section
variable {nodes : ResourceId → Node} {start outer inner : ResourceId} {reference : String}
  {names front back : List String} {outcome : Except Failure ResourceId}

theorem names_append_iff :
    Names nodes outer (front ++ back) inner ↔
      ∃ middle, Names nodes outer front middle ∧ Names nodes middle back inner := by
  constructor
  · intro way
    induction front generalizing outer with
    | nil => exact ⟨outer, .here outer, way⟩
    | cons name rest ih =>
      obtain _ | ⟨below, way⟩ := way
      obtain ⟨middle, first, second⟩ := ih way
      exact ⟨middle, .down below first, second⟩
  · rintro ⟨middle, first, second⟩
    induction first with
    | here => exact second
    | down below _ ih => exact .down below (ih second)

theorem isModule_of_names (way : Names nodes outer names inner) (some : names ≠ []) :
    (nodes outer).isModule = true := by
  cases way with
  | here => exact absurd rfl some
  | down below => exact Node.isModule_of_child? below

theorem descend_of_names (passed : List String) (way : Names nodes outer names inner) :
    descend nodes start reference passed outer names = .ok inner := by
  induction way generalizing passed with
  | here => rfl
  | down below _ ih =>
    rw [descend, Node.isModule_of_child? below, below]
    exact ih _

theorem descend_of_walked (walked : Walked nodes start reference names outcome) :
    descend nodes start reference [] start names = outcome := by
  cases walked with
  | found way => exact descend_of_names [] way
  | @plain front back leaf parts more way plain =>
    obtain ⟨name, rest, rfl⟩ := List.exists_cons_of_ne_nil more
    rw [parts, descend_append, descend_of_names [] way, Except.bind, descend, plain]
    rfl
  | missing parts way module absent =>
    rw [parts, descend_append, descend_of_names [] way, Except.bind, descend, module, absent]
    rfl

theorem exists_walked (way : Names nodes start front inner) (back : List String) :
    ∃ outcome, Walked nodes start reference (front ++ back) outcome := by
  induction back generalizing front inner with
  | nil => exact ⟨_, .found (names_append_iff.mpr ⟨inner, way, .here inner⟩)⟩
  | cons name rest ih =>
    cases module : (nodes inner).isModule with
    | false => exact ⟨_, .plain rfl (List.cons_ne_nil name rest) way module⟩
    | true =>
      cases below : (nodes inner).child? name with
      | none => exact ⟨_, .missing rfl way module below⟩
      | some child =>
        have further := ih (names_append_iff.mpr ⟨inner, way, .down below (.here child)⟩)
        rwa [List.append_assoc, List.singleton_append] at further

theorem descend_eq_iff :
    descend nodes start reference [] start names = outcome ↔
      Walked nodes start reference names outcome := by
  refine ⟨fun same => ?_, descend_of_walked⟩
  obtain ⟨other, walked⟩ : ∃ outcome, Walked nodes start reference names outcome :=
    exists_walked (.here start) names
  rw [← same, descend_of_walked walked]
  exact walked

section
variable {path : ResourcePath} (read : ResourcePath.parse reference = .ok path)
include read

theorem resolve_eq_iff :
    resolve nodes start reference = outcome ↔
      Walked nodes start reference path.segments outcome := by
  rw [← descend_eq_iff, resolve, read]
  rfl

theorem resolve_eq_ok_iff {id : ResourceId} :
    resolve nodes start reference = .ok id ↔ Names nodes start path.segments id := by
  rw [resolve_eq_iff read]
  constructor
  · rintro ⟨way⟩
    exact way
  · exact .found

theorem resolve_eq_notAModule_iff {text within : String} :
    resolve nodes start reference = .error (.notAModule text within) ↔
      ∃ front back leaf, path.segments = front ++ back ∧ back ≠ [] ∧
        Names nodes start front leaf ∧ (nodes leaf).isModule = false ∧
        text = "/".intercalate front ∧ within = (nodes start).path.text := by
  rw [resolve_eq_iff read]
  constructor
  · intro walked
    cases walked with
    | plain parts more way plain => exact ⟨_, _, _, parts, more, way, plain, rfl, rfl⟩
  · rintro ⟨front, back, leaf, parts, more, way, plain, rfl, rfl⟩
    exact .plain parts more way plain

theorem resolve_eq_resourceNotFound_iff {text : String} :
    resolve nodes start reference = .error (.resourceNotFound text) ↔
      text = reference ∧ ∃ front name back inner, path.segments = front ++ name :: back ∧
        Names nodes start front inner ∧ (nodes inner).isModule = true ∧
        (nodes inner).child? name = none := by
  rw [resolve_eq_iff read]
  constructor
  · intro walked
    cases walked with
    | missing parts way module absent => exact ⟨rfl, _, _, _, _, parts, way, module, absent⟩
  · rintro ⟨rfl, front, name, back, inner, parts, way, module, absent⟩
    exact .missing parts way module absent

end

theorem resolveModule_eq_ok_iff {id : ResourceId} :
    resolveModule nodes start reference = .ok id ↔
      resolve nodes start reference = .ok id ∧ (nodes id).isModule = true := by
  unfold resolveModule
  cases resolve nodes start reference with
  | error failure => cases failure <;> exact iff_of_false nofun fun ⟨done, _⟩ => nomatch done
  | ok other =>
    simp only
    split
    · next module =>
      refine ⟨fun same => ?_, And.left⟩
      cases same
      exact ⟨rfl, module⟩
    · next plain =>
      refine iff_of_false nofun fun ⟨same, module⟩ => ?_
      cases same
      exact plain module

/-- A reference of two parts is looked up by looking up one after the other. -/
theorem resolve_append_iff {first second : String} {above below : ResourcePath}
    (one : ResourcePath.parse first = .ok above) (two : ResourcePath.parse second = .ok below)
    (relative : second.toList.head? ≠ some '/') {id : ResourceId} :
    resolve nodes start (first ++ "/" ++ second) = .ok id ↔
      ∃ inner, resolveModule nodes start first = .ok inner ∧
        resolve nodes inner second = .ok id := by
  rw [resolve_eq_ok_iff (ResourcePath.parse_append one two relative), names_append_iff]
  refine exists_congr fun inner => ?_
  rw [resolveModule_eq_ok_iff, resolve_eq_ok_iff one, resolve_eq_ok_iff two]
  constructor
  · rintro ⟨way, further⟩
    exact ⟨⟨way, isModule_of_names further (ResourcePath.segments_ne_nil_of_parse two)⟩, further⟩
  · rintro ⟨⟨way, _⟩, further⟩
    exact ⟨way, further⟩

end

namespace Query
variable {library : Library} {registry : Registry} {node : Node} {tier : Scope}
  {category : Option Category} {entry : Include}

theorem included_eq_unknownReference (mode : entry.mode ≠ .uri)
    (none : ∀ id, resolve (library.node registry) Library.root
      (entry.reference (library.node registry) node) ≠ .ok id) :
    (included node tier category entry).answer library registry =
      (.error (.unknownReference node.text (entry.reference (library.node registry) node) tier
        category), registry) := by
  rw [answer_included_of_ne_uri mode]
  cases done : resolve (library.node registry) Library.root
    (entry.reference (library.node registry) node) with
  | error failure => rfl
  | ok id => exact absurd done (none id)

end Query

namespace Library

/-- A key is looked up from the root as its value is from the enclosing module. -/
theorem resolve_key_iff {library : Library} (tree : library.arena.IsTree) (registry : Registry)
    {id around found : ResourceId} (frozen : id < library.frozen.size)
    (up : (library.node registry id).parent = some around) {entry : Include}
    (mode : entry.mode = .key) {path : ResourcePath}
    (read : ResourcePath.parse entry.value = .ok path)
    (relative : entry.value.toList.head? ≠ some '/') :
    resolve (library.node registry) root
        (entry.reference (library.node registry) (library.node registry id)) = .ok found ↔
      resolve (library.node registry) around entry.value = .ok found := by
  have away : id ≠ root := by
    rintro rfl
    rw [(top_root tree registry).parent] at up
    cases up
  obtain ⟨above, lower, joined, same⟩ := exists_joined_of_ne_root tree registry frozen away
  cases same.symm.trans up
  have known := lower.trans frozen
  by_cases top : around = root
  · subst top
    have outside : enclosing? (library.node registry) (library.node registry id) = none := by
      simp [enclosing?, up, (top_root tree registry).isRoot]
    rw [Include.reference, mode, outside]
  · obtain ⟨_, _, higher, _⟩ := exists_joined_of_ne_root tree registry known top
    have inside : enclosing? (library.node registry) (library.node registry id) =
        some (library.node registry around) := by
      simp [enclosing?, up, higher.inner]
    have place := resolve_path tree registry known top
    have module := resolveModule_eq_ok_iff.mpr ⟨place, joined.isModule⟩
    obtain ⟨above, readAbove, _⟩ := bind_eq_ok_iff.mp place
    rw [Include.reference, mode, inside]
    refine (resolve_append_iff readAbove read relative).trans ⟨?_, fun done => ⟨around, module, done⟩⟩
    rintro ⟨inner, given, done⟩
    cases module.symm.trans given
    exact done

/-- Lookups in a library: what a reference leads to, name by name, where it stops, what a reference of
two parts leads to, and what a key does. -/
theorem lookups_of_build {settings : Settings} {host : Host} {load : ImportLoader}
    {catalog : Catalog} {library : Library}
    (built : build settings host load catalog = .ok library) (session : List Request) :
    let registry := library.after session
    let nodes := library.node registry
    let found := fun (query : Query ResourceId) id =>
      query.answer library registry = (.ok id, registry)
    let failed := fun (query : Query ResourceId) failure =>
      query.answer library registry = (.error failure, registry)
    (∀ module first second above below, ResourcePath.parse first = .ok above →
      ResourcePath.parse second = .ok below → second.toList.head? ≠ some '/' →
      ∀ id, found (Query.lookup module (first ++ "/" ++ second)) id ↔
        ∃ inner, found (Query.lookupModule module first) inner ∧
          found (Query.lookup inner second) id) ∧
    (∀ module reference path, ResourcePath.parse reference = .ok path →
      (∀ id, found (Query.lookup module reference) id ↔ Names nodes module path.segments id) ∧
      (∀ text within, failed (Query.lookup module reference) (.notAModule text within) ↔
        ∃ front back leaf, path.segments = front ++ back ∧ back ≠ [] ∧
          Names nodes module front leaf ∧ (nodes leaf).isModule = false ∧
          text = "/".intercalate front ∧ within = (nodes module).path.text) ∧
      ∀ text, failed (Query.lookup module reference) (.resourceNotFound text) ↔
        text = reference ∧ ∃ front name back inner, path.segments = front ++ name :: back ∧
          Names nodes module front inner ∧ (nodes inner).isModule = true ∧
          (nodes inner).child? name = none) ∧
    ∀ id around header tier category entry, (nodes id).parent = some around →
      (nodes id).header = some header → entry ∈ header.includes tier category →
      entry.mode = .key → (∃ path, ResourcePath.parse entry.value = .ok path) →
      entry.value.toList.head? ≠ some '/' →
        (∀ other, found (Query.included (nodes id) tier category entry) other ↔
          found (Query.lookup around entry.value) other) ∧
        ((∀ other, ¬found (Query.lookup around entry.value) other) →
          failed (Query.included (nodes id) tier category entry)
            (.unknownReference (nodes id).text (entry.reference nodes (nodes id)) tier category)) := by
  intro registry nodes found failed
  have tree := isTree_of_build built
  have reached := library.reached_after session
  have found_iff : ∀ {module reference id}, found (Query.lookup module reference) id ↔
      resolve nodes module reference = .ok id := by
    intro module reference id
    simp only [found, Query.answer_lookup, Prod.mk.injEq, and_true, nodes]
  have failed_iff : ∀ {module reference failure}, failed (Query.lookup module reference) failure ↔
      resolve nodes module reference = .error failure := by
    intro module reference failure
    simp only [failed, Query.answer_lookup, Prod.mk.injEq, and_true, nodes]
  have module_iff : ∀ {module reference id}, found (Query.lookupModule module reference) id ↔
      resolveModule nodes module reference = .ok id := by
    intro module reference id
    simp only [found, Query.answer_lookupModule, Prod.mk.injEq, and_true, nodes]
  refine ⟨?joined, ?walked, ?key⟩
  case joined =>
    intro module first second above below one two relative id
    simp only [found_iff, module_iff]
    exact resolve_append_iff one two relative
  case walked =>
    intro module reference path read
    simp only [found_iff, failed_iff]
    exact ⟨fun _ => resolve_eq_ok_iff read, fun _ _ => resolve_eq_notAModule_iff read,
      fun _ => resolve_eq_resourceNotFound_iff read⟩
  case key =>
    intro id around header tier category entry up stated listed mode ⟨path, read⟩ relative
    have frozen := lt_frozen_of_includes reached stated listed
    have named : entry.mode ≠ .uri := by
      rw [mode]
      decide
    have same : ∀ other, resolve nodes root (entry.reference nodes (nodes id)) = .ok other ↔
        resolve nodes around entry.value = .ok other := fun _ =>
      resolve_key_iff tree registry frozen up mode read relative
    simp only [found_iff, ← same]
    exact ⟨fun _ => (Query.included_eq_ok_iff named).trans (and_iff_left rfl),
      fun none => Query.included_eq_unknownReference named none⟩

def keyed : Catalog :=
  Catalog.empty.withResource (((Declaration.module "acme").withNested
    ((Declaration.module "core").withNested (.resource "api"))).withNested
      ((Declaration.resource "main").withInclude .runtime (.of .key "core/api")))

theorem lookups_of_build_keyed :
    ∃ library, build (.ofRoot ⟨"/"⟩) "now" .none keyed = .ok library ∧
      (Query.lookup root "/acme/core/api").answer library .empty = (.ok 3, .empty) ∧
      (Query.included (library.node .empty 4) .runtime none (.of .key "core/api")).answer library
        .empty = (.ok 3, .empty) := by
  obtain ⟨library, built, up, header, stated, listed, core, api⟩ : ∃ library,
      build (.ofRoot ⟨"/"⟩) "now" .none keyed = .ok library ∧
      (library.node .empty 4).parent = some 1 ∧ ∃ header,
      (library.node .empty 4).header = some header ∧
      header.includes .runtime none = [.of .key "core/api"] ∧
      (Query.lookupModule root "/acme").answer library .empty = (.ok 1, .empty) ∧
      (Query.lookup 1 "core/api").answer library .empty = (.ok 3, .empty) :=
    ⟨_, rfl, rfl, _, rfl, rfl, rfl, rfl⟩
  obtain ⟨joined, _, key⟩ := lookups_of_build built []
  have read : ResourcePath.parse "core/api" = .ok ⟨["core", "api"]⟩ := by decide
  have relative : "core/api".toList.head? ≠ some '/' := by decide
  have found := (joined root "/acme" "core/api" ⟨["acme"]⟩ _ (by decide) read relative 3).mpr
    ⟨1, core, api⟩
  have led := (key 4 1 header .runtime none _ up stated (listed ▸ List.mem_singleton_self _) rfl
    ⟨_, read⟩ relative).1
  exact ⟨library, built, found, (led 3).mpr api⟩

end Library
end ResourceLibrary
