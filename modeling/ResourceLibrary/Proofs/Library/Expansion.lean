import ResourceLibrary.Proofs.Library.DependencyOrder
import ResourceLibrary.Proofs.Library.Sorting

/-!
Expanded providers. Main statement: they are what unexpanded providers reach over steps that take
the BUILD tier only at BUILD, each once; asking for them sorted changes their order alone.
-/

namespace ResourceLibrary
open Registry (Grows Reached)

def ExpansionStep (library : Library) (registry : Registry) (scope : Scope)
    (id next : ResourceId) : Prop :=
  Query.Finds library registry (Query.aggregated id scope (scope = .build)) next

/-- Resources that a query finds with everything that an expansion reaches from them. All that this
depends on can be asked for again and is found again. -/
structure Expansion (library : Library) (registry : Registry) (scope : Scope)
    (start : Query (List ResourceId)) (ids : List ResourceId) : Prop where
  single : ids.Nodup
  known : ∀ id ∈ ids, id < registry.next library
  started : ∃ starts, Query.Settled library registry start starts
  stepped : ∀ id ∈ ids, ∃ providers,
    Query.Settled library registry (Query.aggregated id scope (scope = .build)) providers
  mem_iff : ∀ id, id ∈ ids ↔ ∃ first, Query.Finds library registry start first ∧
    Relation.ReflTransGen (ExpansionStep library registry scope) first id

namespace Expansion
variable {library : Library} {registry : Registry} {scope : Scope}
  {start : Query (List ResourceId)} {ids : List ResourceId}
  (expansion : Expansion library registry scope start ids)
include expansion

theorem mem_of_finds {id : ResourceId} (found : Query.Finds library registry start id) :
    id ∈ ids :=
  (expansion.mem_iff id).mpr ⟨id, found, .refl⟩

theorem mem_of_step {id next : ResourceId} (member : id ∈ ids)
    (step : ExpansionStep library registry scope id next) : next ∈ ids := by
  obtain ⟨first, found, way⟩ := (expansion.mem_iff id).mp member
  exact (expansion.mem_iff next).mpr ⟨first, found, way.tail step⟩

theorem later {last : Registry} (grows : Grows library registry last) :
    Expansion library last scope start ids := by
  obtain ⟨starts, settled⟩ := expansion.started
  have begun : ∀ id, Query.Finds library last start id ↔ Query.Finds library registry start id :=
    fun id => (settled.later grows).finds_iff.trans settled.finds_iff.symm
  have same : ∀ id ∈ ids, ∀ next, ExpansionStep library last scope id next ↔
      ExpansionStep library registry scope id next := by
    intro id member next
    obtain ⟨providers, asked⟩ := expansion.stepped id member
    exact (asked.later grows).finds_iff.trans asked.finds_iff.symm
  refine ⟨expansion.single, fun id member => ?_, ⟨starts, settled.later grows⟩,
    fun id member => ?_, fun id => ⟨?_, ?_⟩⟩
  · exact Nat.lt_of_lt_of_le (expansion.known id member) grows.next_le
  · obtain ⟨providers, asked⟩ := expansion.stepped id member
    exact ⟨providers, asked.later grows⟩
  · intro member
    obtain ⟨first, found, way⟩ := (expansion.mem_iff id).mp member
    refine ⟨first, (begun first).mpr found, ?_⟩
    clear member
    induction way with
    | refl => exact .refl
    | tail before step ih =>
      have inside := (expansion.mem_iff _).mpr ⟨first, found, before⟩
      exact .tail ih ((same _ inside _).mpr step)
  · rintro ⟨first, found, way⟩
    induction way with
    | refl => exact expansion.mem_of_finds ((begun first).mp found)
    | tail _ step ih => exact expansion.mem_of_step ih ((same _ ih _).mp step)

theorem perm {others : List ResourceId} (same : others.Perm ids) :
    Expansion library registry scope start others := by
  refine ⟨same.nodup_iff.mpr expansion.single, fun id member => ?_, expansion.started,
    fun id member => ?_, fun id => ?_⟩
  · exact expansion.known id (same.mem_iff.mp member)
  · exact expansion.stepped id (same.mem_iff.mp member)
  · exact same.mem_iff.trans (expansion.mem_iff id)

end Expansion

namespace Query
variable {library : Library} (tree : library.arena.IsTree) {start grown : Registry}
  (reached : Reached library start)
include reached

theorem settled_of_answer {next : ResourceId → Query (List ResourceId)}
    (steady : Steady library start (Itself library (World.diagonal reached).Near) next)
    {id : ResourceId} (known : id < start.next library) {ids : List ResourceId}
    (given : (next id).answer library start = (.ok ids, grown)) :
    Settled library grown (next id) ids ∧ ∀ other ∈ ids, other < grown.next library := by
  have here := itself_of_lt reached known
  have grows := (steady.growing id).grows given
  refine ⟨steady.settled .refl here given, fun other member => ?_⟩
  exact lt_next_of_itself reached grows (steady.stays .refl here given other member)

include tree

theorem finds_aggregated_iff {id : ResourceId} (known : id < start.next library) {scope : Scope}
    {withBuild : Bool} {ids : List ResourceId}
    (given : (aggregated id scope withBuild).answer library start = (.ok ids, grown)) :
    (∀ tier ∈ scope.tiers withBuild, ∃ others,
      Settled library grown (localProviders id tier none) others) ∧
    ∀ other, other ∈ ids ↔ ∃ tier ∈ scope.tiers withBuild,
      Finds library grown (localProviders id tier none) other :=
  settled_of_gather (fun tier => steady_localProviders tree reached tier none) .refl
    (itself_of_lt reached known) given

section
variable {first : ResourceId → Query (List ResourceId)}
  (steady : Steady library start (Itself library (World.diagonal reached).Near) first)
  {id : ResourceId} (known : id < start.next library) {scope : Scope} {ids : List ResourceId}
include steady known

theorem expansion_of_expanded
    (given : (first id >>= (expanded · scope)).answer library start = (.ok ids, grown)) :
    Expansion library grown scope (first id) ids := by
  obtain ⟨starts, early, asked, closed⟩ := answer_bind_eq_ok_iff.mp given
  have begun := reached.grows ((steady.growing id).grows asked)
  have onward := (growing_expanded starts scope).grows closed
  obtain ⟨settled, inside⟩ := settled_of_answer reached steady known asked
  have here : ∀ other ∈ starts, Itself library (World.diagonal begun).Near early other :=
    fun other member => itself_of_lt begun (inside other member)
  have further := steady_aggregated tree begun scope (scope = .build)
  obtain ⟨single, each, mem_iff⟩ := closure_of_answer further here closed
  refine ⟨single, fun other member => ?_, ⟨starts, settled.later onward⟩,
    fun other member => ⟨_, (each other member).settled⟩, fun other => ?_⟩
  · exact lt_next_of_itself begun onward (each other member).inside
  · rw [mem_iff grown .refl]
    simp only [(settled.later onward).finds_iff]
    rfl

theorem expansion_of_answer {sorted : Bool}
    (given : (first id >>= (expanded · scope) >>= (arranged · scope sorted)).answer library start =
      (.ok ids, grown)) :
    Expansion library grown scope (first id) ids ∧ ∃ found middle,
      (first id >>= (expanded · scope)).answer library start = (.ok found, middle) ∧
        ids.Perm found := by
  obtain ⟨found, middle, asked, ordered⟩ := answer_bind_eq_ok_iff.mp given
  have growing : Growing (first id >>= (expanded · scope)) :=
    growing_bind (steady.growing id) fun starts => growing_expanded starts scope
  have expansion := expansion_of_expanded tree reached steady known asked
  have same := perm_of_arranged tree (reached.grows (growing.grows asked)) expansion.known
    expansion.single ordered
  have rest := (growing_arranged found scope sorted).grows ordered
  exact ⟨(expansion.later rest).perm same, found, middle, asked, same⟩

theorem unsorted_of_answer {sorted : Bool}
    (given : (first id >>= (expanded · scope) >>= (arranged · scope sorted)).answer library start =
      (.ok ids, grown)) :
    ∃ plain last, (first id >>= (expanded · scope) >>= (arranged · scope false)).answer library
      start = (.ok plain, last) ∧ plain.Perm ids := by
  obtain ⟨_, found, middle, asked, same⟩ := expansion_of_answer tree reached steady known given
  refine ⟨_, middle, answer_bind_eq_ok_iff.mpr ⟨found, middle, asked, rfl⟩, ?_⟩
  exact (List.mergeSort_perm _ _).trans same.symm

end

end Query

namespace Library

/-- Expanded providers are what the unexpanded ones reach, each once, in whatever order. -/
theorem expansion_of_providers {settings : Settings} {host : Host} {load : ImportLoader}
    {catalog : Catalog} {library : Library}
    (built : build settings host load catalog = .ok library) (earlier : List Request)
    (id : ResourceId) (known : id < library.frozen.size + (library.after earlier).nodes.size)
    (scope : Scope) (sorted : Bool) :
    let registry := library.after earlier
    (∀ ids grown, (Query.providers id scope true sorted).answer library registry =
        (.ok ids, grown) →
      Expansion library grown scope (Query.localProviders id scope none) ids ∧
        ∃ plain last, (Query.providers id scope true false).answer library registry =
          (.ok plain, last) ∧ plain.Perm ids) ∧
    (∀ ids grown, (Query.allProviders id scope true sorted).answer library registry =
        (.ok ids, grown) →
      Expansion library grown scope (Query.aggregated id scope true) ids ∧
        ∃ plain last, (Query.allProviders id scope true false).answer library registry =
          (.ok plain, last) ∧ plain.Perm ids) := by
  intro registry
  have tree := isTree_of_build built
  have reached := reached_after library earlier
  refine ⟨fun ids grown given => ?_, fun ids grown given => ?_⟩
  · have steady := Query.steady_localProviders tree reached scope none
    exact ⟨(Query.expansion_of_answer tree reached steady known given).1,
      Query.unsorted_of_answer tree reached steady known given⟩
  · have steady := Query.steady_aggregated tree reached scope true
    exact ⟨(Query.expansion_of_answer tree reached steady known given).1,
      Query.unsorted_of_answer tree reached steady known given⟩

theorem expansion_of_providers_circle :
    ∃ library grown, build (.ofRoot ⟨"/"⟩) "now" .none circle = .ok library ∧
      (Query.providers 2 .runtime true true).answer library (library.after []) =
        (.ok [3, 2], grown) ∧
      Expansion library grown .runtime (Query.localProviders 2 .runtime none) [3, 2] ∧
      (Query.allProviders 2 .test true true).answer library (library.after []) =
        (.ok [3, 2], grown) ∧
      Expansion library grown .test (Query.aggregated 2 .test true) [3, 2] := by
  obtain ⟨library, built, size, tier, all⟩ : ∃ library,
      build (.ofRoot ⟨"/"⟩) "now" .none circle = .ok library ∧ library.frozen.size = 4 ∧
      (Query.providers 2 .runtime true true).answer library .empty = (.ok [3, 2], .empty) ∧
      (Query.allProviders 2 .test true true).answer library .empty = (.ok [3, 2], .empty) :=
    ⟨_, rfl, rfl, rfl, rfl⟩
  have known : 2 < library.frozen.size + (library.after []).nodes.size := by
    rw [size]
    exact Nat.lt_add_right _ (by decide)
  have one := (expansion_of_providers built [] 2 known .runtime true).1 _ _ tier
  have two := (expansion_of_providers built [] 2 known .test true).2 _ _ all
  exact ⟨library, .empty, built, tier, one.1, all, two.1⟩

end Library
end ResourceLibrary
