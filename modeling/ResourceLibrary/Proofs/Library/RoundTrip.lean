import ResourceLibrary.Proofs.Library.Counterparts

/-!
Export and back. Main statement: a library built from the export of a module alone has all that is
at or below the module, each at its path with what it declares and the products that are exported, and
each plain resource there is provided with what it needs in the module and, for all else that it
needs, with the resources of the coordinates of its products.
-/

namespace ResourceLibrary

/-- Resources that are provided in a copy in place of what the original needs: at the same paths what
lies in the module, and for all else the resources of the coordinates of its products. -/
structure ProvidesAlike (library : Library) (registry : Registry) (module id : ResourceId)
    (copy : Library) (last : Registry) (ids : List ResourceId) : Prop where
  named : ∀ path,
    (∃ other ∈ ids, (copy.node last other).isAnonymous = false ∧ (copy.node last other).path = path) ↔
      ∃ provider, library.Supplies registry id provider ∧
        AtOrBelow (library.node registry) module provider ∧
        (library.node registry provider).path = path
  anonymous : ∀ other, (other ∈ ids ∧ (copy.node last other).isAnonymous = true) ↔
    ∃ provider, library.Supplies registry id provider ∧
      ¬AtOrBelow (library.node registry) module provider ∧
      ∃ product ∈ (library.node registry provider).deliverables,
        last.urns.lookup product.coordinate.text = some other

/-- What a resource of a module keeps in a library built from the module's export: its counterpart
there is a replica, and where it is plain all that it needs was found and is provided there. -/
structure Preserves (library : Library) (registry : Registry) (module : ResourceId)
    (copy : Library) (id twin : ResourceId) : Prop where
  replica : ∀ last, (library.node registry id).Replica (copy.node last twin)
  supplied : (library.node registry id).isModule = false → ∀ category ∈ Category.exportOrder,
    ∃ ids grown, (Query.tierProviders id .runtime true (some category)).answer library registry =
      (.ok ids, grown)
  provided : (library.node registry id).isModule = false → ∀ session sorted, ∃ ids last,
    (Query.providers twin .runtime true sorted).answer copy (copy.after session) = (.ok ids, last) ∧
      ProvidesAlike library registry module id copy last ids

section
variable {library : Library} {registry : Registry} {module : ResourceId} {exported : Declaration}
  {copy : Library} (rebuilt : Rebuilt library registry module exported copy) {id twin : ResourceId}
  (counterpart : Counterpart library registry module copy id twin) (literal : exported.Literal)
include rebuilt counterpart literal

theorem Rebuilt.providesAlike (plain : (library.node registry id).isModule = false) {last : Registry}
    (reached : Registry.Reached copy last) {ids : List ResourceId}
    (expansion : Expansion copy last .runtime (Query.localProviders twin .runtime none) ids) :
    ProvidesAlike library registry module id copy last ids := by
  have listed : ∀ other, other ∈ ids ↔ ∃ provider, library.Supplies registry id provider ∧
      StandsFor library registry module copy last provider other := fun other =>
    rebuilt.mem_iff_standsFor counterpart literal plain reached expansion
  constructor
  case named =>
    intro path
    constructor
    · rintro ⟨other, member, named, rfl⟩
      obtain ⟨provider, supplied, inner | ⟨_, _, found⟩⟩ := (listed other).mp member
      · refine ⟨provider, supplied, inner.inside, ?_⟩
        rw [Library.node_eq_of_lt inner.frozen last .empty, inner.path]
      · rw [(reached.leaf found).2.2.1] at named
        cases named
    · rintro ⟨provider, supplied, inside, rfl⟩
      obtain ⟨other, inner⟩ := rebuilt.exists_counterpart inside
      refine ⟨other, (listed other).mpr ⟨provider, supplied, .inside inner⟩,
        inner.isAnonymous last, ?_⟩
      rw [Library.node_eq_of_lt inner.frozen last .empty, inner.path]
  case anonymous =>
    intro other
    constructor
    · rintro ⟨member, anonymous⟩
      obtain ⟨provider, supplied, inner | ⟨apart, product, found⟩⟩ := (listed other).mp member
      · rw [inner.isAnonymous last] at anonymous
        cases anonymous
      · exact ⟨provider, supplied, apart, _, product, found⟩
    · rintro ⟨provider, supplied, apart, product, member, found⟩
      exact ⟨(listed other).mpr ⟨provider, supplied, .outside apart member found⟩,
        (reached.leaf found).2.2.1⟩

theorem Rebuilt.preserves (complete : copy.Complete) (made : library.arena.Made library.ground)
    (named : (library.node registry id).isAnonymous = false) :
    Preserves library registry module copy id twin := by
  constructor
  case replica => exact fun last => rebuilt.replica_counterpart counterpart last made named
  case supplied =>
    intro plain category among
    obtain ⟨_, _, written⟩ := counterpart.written
    obtain ⟨ids, settled, _⟩ := written.supplied plain category among
    exact ⟨ids, settled registry .refl⟩
  case provided =>
    intro plain session sorted
    have tree := rebuilt.planted.isTree
    have start := copy.reached_after session
    have steady := Query.steady_localProviders tree start .runtime none
    have known : twin < (copy.after session).next copy := Nat.lt_add_right _ counterpart.frozen
    obtain ⟨ids, last, given⟩ :=
      Query.exists_providers_of_complete complete start twin .runtime true sorted
    have grows := (Query.growing_providers twin .runtime true sorted).grows given
    have expansion := (Query.expansion_of_answer tree start steady known given).1
    exact ⟨ids, last, given, rebuilt.providesAlike counterpart literal plain (start.grows grows)
      expansion⟩

end

namespace Library

/-- What was exported can be loaded again, and is the same but for what the export leaves out. -/
theorem export_round_trip {settings : Settings} {host : Host} {load : ImportLoader}
    {catalog : Catalog} {library : Library}
    (built : build settings host load catalog = .ok library) (session : List Request)
    {module : ResourceId} (isModule : (library.node (library.after session) module).isModule = true)
    {exported : Declaration} {grown : Registry}
    (answered : (Query.exportModule module).answer library (library.after session) =
      (.ok exported, grown))
    (named : ∀ id, AtOrBelow (library.node grown) module id →
      (library.node grown id).isAnonymous = false)
    (readable : ∀ entry, exported.Includes entry → entry.mode = .uri →
      (∃ coordinate, Coordinate.parse entry.value = .ok coordinate) ∧
        Text.holdsPair '$' '\x7b' entry.value.toList = false) (later : String) :
    ∃ copy, build settings later .none (Catalog.empty.withResource exported) = .ok copy ∧
      ∀ id, AtOrBelow (library.node grown) module id →
        ∃ twin < copy.frozen.size, Preserves library grown module copy id twin := by
  obtain ⟨copy, copied, rebuilt⟩ := exists_rebuilt built session isModule answered later
  have literal : exported.Literal := fun entry inside mode => (readable entry inside mode).2
  have complete : copy.Complete := by
    refine rebuilt.complete_of_parse fun urn cites => ?_
    obtain ⟨_, _, _, entry, _, _, _, inside, mode, rfl⟩ := rebuilt.exists_include_of_cites cites
    rw [resolve_of_not_holdsPair _ (literal entry inside mode)]
    exact (readable entry inside mode).1
  have made : library.arena.Made library.ground :=
    (Arena.made_start _ _).of_grown (Arena.isTree_start _ _) (grown_of_build built)
  refine ⟨copy, copied, fun id inside => ?_⟩
  obtain ⟨twin, counterpart⟩ := rebuilt.exists_counterpart inside
  exact ⟨twin, counterpart.frozen,
    rebuilt.preserves counterpart literal complete made (named id inside)⟩

def shelf : Catalog :=
  (Catalog.empty.withResource (((Declaration.module "app").withNested
    (((Declaration.resource "main").withInclude .runtime (.of .ref "app/part")).withInclude .runtime
      (.of .ref "ext/lib"))).withNested (.resource "part"))).withResource
    ((Declaration.module "ext").withNested ((Declaration.resource "lib").withProduct (.ofId "jar")))

def shelved : Declaration :=
  (((Declaration.module "app").withVersion "SNAPSHOT").withNested
    ((((Declaration.resource "main").withVersion "SNAPSHOT").withInclude .runtime
      (.of .ref "app/part")).withInclude .runtime (.of .uri "artifact:jar:ext/lib#SNAPSHOT"))).withNested
    ((Declaration.resource "part").withVersion "SNAPSHOT")

theorem value_of_includes_shelved {entry : Include} (inside : shelved.Includes entry)
    (mode : entry.mode = .uri) : entry.value = "artifact:jar:ext/lib#SNAPSHOT" := by
  obtain ⟨path, header, dependency, declares, depends, member⟩ := inside
  unfold shelved at declares
  cases declares with
  | here => cases depends
  | inside among below =>
    rcases List.mem_cons.mp among with rfl | last
    · cases below with
      | here =>
        rw [List.mem_singleton.mp depends] at member
        rcases List.mem_cons.mp member with rfl | other
        · cases mode
        · rw [List.mem_singleton.mp other]
          rfl
      | inside none => cases none
    · rw [List.mem_singleton.mp last] at below
      cases below with
      | here => cases depends
      | inside none => cases none

theorem export_round_trip_shelf :
    ∃ library copy twin ids last,
      build (.ofRoot ⟨"/"⟩) "now" .none shelf = .ok library ∧
      build (.ofRoot ⟨"/"⟩) "later" .none (Catalog.empty.withResource shelved) = .ok copy ∧
      (library.node .empty 2).Replica (copy.node last twin) ∧
      (Query.providers twin .runtime true false).answer copy .empty = (.ok ids, last) ∧
      ∃ other ∈ ids, (copy.node last other).path = ⟨["app", "part"]⟩ := by
  obtain ⟨library, built, size, isModule, exported, named, main, part, plain, path, needs⟩ :
      ∃ library, build (.ofRoot ⟨"/"⟩) "now" .none shelf = .ok library ∧ library.frozen.size = 6 ∧
        (library.node .empty 1).isModule = true ∧
        (Query.exportModule 1).answer library .empty = (.ok shelved, .empty) ∧
        (∀ id < 6, (library.node .empty id).isAnonymous = false) ∧
        (library.node .empty 2).parent = some 1 ∧ (library.node .empty 3).parent = some 1 ∧
        (library.node .empty 2).isModule = false ∧
        (library.node .empty 3).path = ⟨["app", "part"]⟩ ∧
        (Query.tierProviders 2 .runtime true (some .undefined)).answer library .empty =
          (.ok [3, 5], .empty) :=
    ⟨_, rfl, rfl, rfl, rfl, by decide, rfl, rfl, rfl, rfl, rfl⟩
  have tree := isTree_of_build built
  have known : (1 : ResourceId) < Registry.empty.next library := by
    rw [Registry.next, size]
    decide
  have bounded : ∀ id, AtOrBelow (library.node .empty) 1 id →
      (library.node .empty id).isAnonymous = false := fun id inside =>
    named id (size ▸ known_of_atOrBelow known inside)
  have read : Coordinate.parse "artifact:jar:ext/lib#SNAPSHOT" =
      .ok ⟨"artifact", "jar", "ext", "lib", some "SNAPSHOT"⟩ := by cbv
  obtain ⟨copy, copied, each⟩ := export_round_trip built [] isModule exported bounded
    (fun entry inside mode => by
      rw [value_of_includes_shelved inside mode]
      exact ⟨⟨_, read⟩, by decide⟩) "later"
  obtain ⟨twin, _, replica, _, provided⟩ := each 2 (.single main)
  obtain ⟨ids, last, given, alike⟩ := provided plain [] false
  obtain ⟨other, member, _, place⟩ := (alike.named ⟨["app", "part"]⟩).mpr
    ⟨3, ⟨.undefined, by decide, _, _, needs, by decide⟩, .single part, path⟩
  exact ⟨library, copy, twin, ids, last, built, copied, replica last, given, other, member, place⟩

end Library
end ResourceLibrary
