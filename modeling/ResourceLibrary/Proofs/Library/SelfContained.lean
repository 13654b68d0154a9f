import ResourceLibrary.Proofs.Library.RoundTrip

/-!
Exports that stand alone. Main statement: a library built from an export finds the providers of every
resource of the module exactly where each coordinate that the export pins can be read back. The
coordinate of a resource that stands in no module cannot, as it has no group.
-/

namespace ResourceLibrary

namespace Library

/-- Where all pinned coordinates can be read, and only there, all providers are found in the copy. -/
theorem self_contained_iff {settings : Settings} {host : Host} {load : ImportLoader}
    {catalog : Catalog} {library : Library}
    (built : build settings host load catalog = .ok library) (session : List Request)
    {module : ResourceId} (isModule : (library.node (library.after session) module).isModule = true)
    {exported : Declaration} {grown : Registry}
    (answered : (Query.exportModule module).answer library (library.after session) =
      (.ok exported, grown)) (later : String) :
    ∃ copy, build settings later .none (Catalog.empty.withResource exported) = .ok copy ∧
      ((∀ urn, copy.Cites urn → ∃ coordinate, Coordinate.parse urn = .ok coordinate) ↔
        ∀ id, AtOrBelow (library.node grown) module id → ∃ twin < copy.frozen.size,
          (copy.node .empty twin).path = (library.node grown id).path ∧
          ∀ requests sorted, ∃ ids last,
            (Query.providers twin .runtime true sorted).answer copy (copy.after requests) =
              (.ok ids, last)) := by
  obtain ⟨copy, copied, rebuilt⟩ := exists_rebuilt built session isModule answered later
  have tree := rebuilt.planted.isTree
  refine ⟨copy, copied, fun readable id inside => ?_, fun provided urn cites => ?_⟩
  · obtain ⟨twin, counterpart⟩ := rebuilt.exists_counterpart inside
    refine ⟨twin, counterpart.frozen, counterpart.path, fun requests sorted => ?_⟩
    exact Query.exists_providers_of_complete (rebuilt.complete_of_parse readable)
      (copy.reached_after requests) twin .runtime true sorted
  · obtain ⟨id, twin, header, entry, counterpart, stated, member, _, mode, rfl⟩ :=
      rebuilt.exists_include_of_cites cites
    obtain ⟨other, frozen, path, found⟩ := provided id counterpart.inside
    have same : other = twin := tree.path_injective (node?_of_lt frozen .empty)
      (node?_of_lt counterpart.frozen .empty) (path.trans counterpart.path.symm)
    obtain ⟨ids, last, given⟩ := found [] false
    rw [same] at given
    exact Query.parse_of_providers tree (copy.reached_after []) stated member mode given

theorem self_contained_iff_shelf :
    ∃ library copy, build (.ofRoot ⟨"/"⟩) "now" .none shelf = .ok library ∧
      (Query.exportModule 1).answer library (library.after []) = (.ok shelved, .empty) ∧
      build (.ofRoot ⟨"/"⟩) "later" .none (Catalog.empty.withResource shelved) = .ok copy ∧
      ∃ twin, (copy.node .empty twin).path = ⟨["app", "main"]⟩ ∧ ∃ ids last,
        (Query.providers twin .runtime true true).answer copy .empty = (.ok ids, last) := by
  obtain ⟨library, built, isModule, exported, main, path⟩ : ∃ library,
      build (.ofRoot ⟨"/"⟩) "now" .none shelf = .ok library ∧
      (library.node .empty 1).isModule = true ∧
      (Query.exportModule 1).answer library .empty = (.ok shelved, .empty) ∧
      (library.node .empty 2).parent = some 1 ∧
      (library.node .empty 2).path = ⟨["app", "main"]⟩ := ⟨_, rfl, rfl, rfl, rfl, rfl⟩
  obtain ⟨copy, copied, found⟩ := self_contained_iff built [] isModule exported "later"
  have read : Coordinate.parse "artifact:jar:ext/lib#SNAPSHOT" =
      .ok ⟨"artifact", "jar", "ext", "lib", some "SNAPSHOT"⟩ := by cbv
  have readable : ∀ urn, copy.Cites urn → ∃ coordinate, Coordinate.parse urn = .ok coordinate := by
    obtain ⟨same, built, rebuilt⟩ := exists_rebuilt built [] isModule exported "later"
    rw [copied] at built
    cases built
    intro urn cites
    obtain ⟨_, _, _, entry, _, _, _, inside, mode, rfl⟩ := rebuilt.exists_include_of_cites cites
    rw [value_of_includes_shelved inside mode, resolve_of_not_holdsPair _ (by decide)]
    exact ⟨_, read⟩
  obtain ⟨twin, _, place, provided⟩ := found.mp readable 2 (.single main)
  obtain ⟨ids, last, given⟩ := provided [] true
  exact ⟨library, copy, built, exported, copied, twin, place.trans path, ids, last, given⟩

def loose : Catalog :=
  (Catalog.empty.withResource ((Declaration.resource "lib").withProduct (.ofId "jar"))).withResource
    ((Declaration.module "app").withNested
      ((Declaration.resource "main").withInclude .runtime (.of .ref "lib")))

def loosened : Declaration :=
  ((Declaration.module "app").withVersion "SNAPSHOT").withNested
    (((Declaration.resource "main").withVersion "SNAPSHOT").withInclude .runtime
      (.of .uri "artifact:jar:lib#SNAPSHOT"))

/-- The export pins a coordinate without a group, and the providers are not found in the copy. -/
theorem not_self_contained_loose :
    ∃ library copy, build (.ofRoot ⟨"/"⟩) "now" .none loose = .ok library ∧
      (Query.exportModule 2).answer library (library.after []) = (.ok loosened, .empty) ∧
      build (.ofRoot ⟨"/"⟩) "now" .none (Catalog.empty.withResource loosened) = .ok copy ∧
      (copy.node .empty 2).path = ⟨["app", "main"]⟩ ∧
      ∀ session sorted ids last,
        (Query.providers 2 .runtime true sorted).answer copy (copy.after session) ≠
          (.ok ids, last) := by
  obtain ⟨library, built, exported⟩ : ∃ library,
      build (.ofRoot ⟨"/"⟩) "now" .none loose = .ok library ∧
      (Query.exportModule 2).answer library .empty = (.ok loosened, .empty) := ⟨_, rfl, rfl⟩
  obtain ⟨copy, copied, size, path, header, stated, includes⟩ : ∃ copy,
      build (.ofRoot ⟨"/"⟩) "now" .none (Catalog.empty.withResource loosened) = .ok copy ∧
      copy.frozen.size = 3 ∧ (copy.node .empty 2).path = ⟨["app", "main"]⟩ ∧
      ∃ header, (copy.node .empty 2).header = some header ∧
        header.includes .runtime none = [.of .uri "artifact:jar:lib#SNAPSHOT"] :=
    ⟨_, rfl, rfl, rfl, _, rfl, rfl⟩
  refine ⟨library, copy, built, exported, copied, path, fun session sorted ids last given => ?_⟩
  have frozen : (2 : ResourceId) < copy.frozen.size := size ▸ (by decide : 2 < 3)
  rw [node_eq_of_lt frozen .empty (copy.after session)] at stated
  have member : Include.of .uri "artifact:jar:lib#SNAPSHOT" ∈ header.includes .runtime none := by
    rw [includes]
    exact List.mem_singleton.mpr rfl
  obtain ⟨coordinate, read⟩ := Query.parse_of_providers (isTree_of_build copied)
    (copy.reached_after session) stated member rfl given
  have unread : Coordinate.parse "artifact:jar:lib#SNAPSHOT" =
      .error (.invalidArtifact "artifact:jar:lib#SNAPSHOT" .missingGroup) := by cbv
  rw [resolve_of_not_holdsPair _ (by decide)] at read
  cases read.symm.trans unread

end Library
end ResourceLibrary
