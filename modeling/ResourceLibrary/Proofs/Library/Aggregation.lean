import ResourceLibrary.Proofs.Library.Expansion

/-!
Aggregation over scopes. Main statements: what is aggregated at a scope is aggregated at every
higher one, except that an expansion at BUILD also follows the BUILD tiers of providers, so that it
is part of a higher one exactly where that is closed under them.
-/

namespace ResourceLibrary
open Registry (Grows Reached)

theorem Scope.tiers_subset {lower upper : Scope} (order : lower ≤ upper) (withBuild : Bool) :
    lower.tiers withBuild ⊆ upper.tiers withBuild := by
  revert order withBuild
  cases lower <;> cases upper <;> decide

theorem Scope.tiers_subset_of_step {lower upper : Scope} (order : lower ≤ upper)
    (above : lower ≠ .build) :
    lower.tiers (lower = .build) ⊆ upper.tiers (upper = .build) := by
  revert order above
  cases lower <;> cases upper <;> decide

/-- An expansion holds one whose start it holds, if it is closed under the steps of that one. -/
theorem Expansion.subset_of_step {library : Library} {registry : Registry} {lower upper : Scope}
    {first second : Query (List ResourceId)} {ids others : List ResourceId}
    (inner : Expansion library registry lower first ids)
    (outer : Expansion library registry upper second others)
    (starts : ∀ id, Query.Finds library registry first id → Query.Finds library registry second id)
    (steps : ∀ id ∈ ids, id ∈ others → ∀ next,
      ExpansionStep library registry lower id next → next ∈ others) : ids ⊆ others := by
  intro id member
  obtain ⟨begun, found, way⟩ := (inner.mem_iff id).mp member
  clear member
  induction way with
  | refl => exact outer.mem_of_finds (starts begun found)
  | tail before step ih =>
    exact steps _ ((inner.mem_iff _).mpr ⟨begun, found, before⟩) ih _ step

namespace Query
variable {library : Library} (tree : library.arena.IsTree) {start grown : Registry}
  (reached : Reached library start) {id : ResourceId} (known : id < start.next library)
include tree reached known

theorem finds_aggregated_of_tiers {lower upper : Scope} {less more : Bool}
    (tiers : lower.tiers less ⊆ upper.tiers more) {xs ys : List ResourceId}
    (inner : Settled library start (aggregated id lower less) xs)
    (outer : Settled library start (aggregated id upper more) ys) : xs ⊆ ys := by
  -- Both are asked for, one after the other, and compared behind that.
  obtain ⟨middle, first⟩ := inner start .refl
  have begun := (growing_aggregated id lower less).grows first
  obtain ⟨last, second⟩ := outer middle begun
  have onward := (growing_aggregated id upper more).grows second
  obtain ⟨settled, few⟩ := finds_aggregated_iff tree reached known first
  have later := Nat.lt_of_lt_of_le known begun.next_le
  obtain ⟨_, many⟩ := finds_aggregated_iff tree (reached.grows begun) later second
  intro other member
  obtain ⟨tier, among, found⟩ := (few other).mp member
  obtain ⟨others, asked⟩ := settled tier among
  refine (many other).mpr ⟨tier, tiers among, ?_⟩
  rw [(asked.later onward).finds_iff, ← asked.finds_iff]
  exact found

theorem settled_of_allProviders {scope : Scope} {sorted : Bool} {ids : List ResourceId}
    (given : (allProviders id scope false sorted).answer library start = (.ok ids, grown)) :
    ∃ found, Settled library grown (aggregated id scope true) found ∧ ids.Perm found := by
  obtain ⟨found, middle, asked, ordered⟩ := answer_bind_eq_ok_iff.mp given
  obtain ⟨_, _, direct, same⟩ := answer_bind_eq_ok_iff.mp asked
  cases same
  have begun := (growing_aggregated id scope true).grows direct
  have rest := (growing_arranged found scope sorted).grows ordered
  obtain ⟨settled, bounds⟩ :=
    settled_of_answer reached (steady_aggregated tree reached scope true) known direct
  have single : found.Nodup := by
    obtain ⟨lists, _, _, done⟩ := answer_bind_eq_ok_iff.mp direct
    cases done
    exact nodup_distinct _
  exact ⟨found, settled.later rest,
    perm_of_arranged tree (reached.grows begun) bounds single ordered⟩

end Query

namespace Library

theorem known_of_min {library : Library} {session : List Request} {first second : Nat}
    {id : ResourceId}
    (known : id < (library.after (session.take (min first second))).next library) :
    id < (library.after (session.take first)).next library := by
  have grows := library.grows_after_take (session.take first) second
  rw [List.take_take, Nat.min_comm] at grows
  exact Nat.lt_of_lt_of_le known grows.next_le

section
variable {library : Library} (tree : library.arena.IsTree) {session : List Request} {place : Nat}
  {id : ResourceId} (known : id < (library.after (session.take place)).next library)
  {scope : Scope} {sorted : Bool} {ids : List ResourceId}
include tree known

theorem settled_of_answered
    (answered : library.Answered session place (.allProviders id scope false sorted)
      (.resources ids)) :
    ∃ found, Query.Settled library (library.after session) (Query.aggregated id scope true) found ∧
      ids.Perm found := by
  obtain ⟨there, grown, performed⟩ := answered
  have rest := library.grows_of_place there
  obtain ⟨found, middle, given, done⟩ := Query.answer_bind_eq_ok_iff.mp performed
  cases done
  rw [performed] at rest
  obtain ⟨others, settled, same⟩ :=
    Query.settled_of_allProviders tree (reached_after _ _) known given
  exact ⟨others, settled.later rest, same⟩

theorem expansion_of_answered
    (answered : library.Answered session place (.allProviders id scope true sorted)
      (.resources ids)) :
    Expansion library (library.after session) scope (Query.aggregated id scope true) ids := by
  obtain ⟨there, grown, performed⟩ := answered
  have rest := library.grows_of_place there
  obtain ⟨found, middle, given, done⟩ := Query.answer_bind_eq_ok_iff.mp performed
  cases done
  rw [performed] at rest
  have reached := reached_after library (session.take place)
  have steady := Query.steady_aggregated tree reached scope true
  exact (Query.expansion_of_answer tree reached steady known given).1.later rest

end

/-- What is aggregated at a scope is aggregated at any higher one, but for what an expansion at BUILD
comes to over BUILD tiers of providers. -/
theorem aggregation_of_session {settings : Settings} {host : Host} {load : ImportLoader}
    {catalog : Catalog} {library : Library}
    (built : build settings host load catalog = .ok library) (session : List Request)
    {first second : Nat} {id : ResourceId}
    (known : id < library.frozen.size +
      (library.after (session.take (min first second))).nodes.size)
    {lower upper : Scope} (order : lower ≤ upper) {expand sorted resorted : Bool}
    {ids others : List ResourceId}
    (inner : library.Answered session first (.allProviders id lower expand sorted)
      (.resources ids))
    (outer : library.Answered session second (.allProviders id upper expand resorted)
      (.resources others)) :
    let registry := library.after session
    ((expand = true → lower ≠ .build) → ids ⊆ others) ∧
    (lower = .build →
      (∀ next, Query.Finds library registry (Query.aggregated id .build true) next →
        next ∈ others) ∧
      (expand = true → (ids ⊆ others ↔ ∀ provider ∈ ids, provider ∈ others → ∀ next,
        Query.Finds library registry (Query.aggregated provider .build true) next →
          next ∈ others))) := by
  intro registry
  have tree := isTree_of_build built
  have reached := reached_after library session
  have knownFirst := known_of_min known
  have knownSecond : id < (library.after (session.take second)).next library := by
    rw [Nat.min_comm] at known
    exact known_of_min known
  have here := Nat.lt_of_lt_of_le knownFirst (library.grows_after_take session first).next_le
  cases expand with
  | false =>
    obtain ⟨xs, few, sameFew⟩ := settled_of_answered tree knownFirst inner
    obtain ⟨ys, many, sameMany⟩ := settled_of_answered tree knownSecond outer
    have part := Query.finds_aggregated_of_tiers tree reached here (Scope.tiers_subset order true)
      few many
    refine ⟨fun _ other member => ?_, fun bottom => ⟨fun next found => ?_, nofun⟩⟩
    · exact sameMany.mem_iff.mpr (part (sameFew.mem_iff.mp member))
    · rw [bottom] at few
      exact sameMany.mem_iff.mpr (part (few.finds_iff.mp found))
  | true =>
    have few := expansion_of_answered tree knownFirst inner
    have many := expansion_of_answered tree knownSecond outer
    have starts : ∀ other, Query.Finds library registry (Query.aggregated id lower true) other →
        Query.Finds library registry (Query.aggregated id upper true) other := by
      obtain ⟨xs, settled⟩ := few.started
      obtain ⟨ys, more⟩ := many.started
      intro other found
      rw [more.finds_iff]
      exact Query.finds_aggregated_of_tiers tree reached here (Scope.tiers_subset order true)
        settled more (settled.finds_iff.mp found)
    refine ⟨fun above => ?_, fun bottom => ?_⟩
    · refine few.subset_of_step many starts fun provider member shared next step => ?_
      obtain ⟨xs, settled⟩ := few.stepped provider member
      obtain ⟨ys, more⟩ := many.stepped provider shared
      refine many.mem_of_step shared (more.finds_iff.mpr ?_)
      exact Query.finds_aggregated_of_tiers tree reached (few.known provider member)
        (Scope.tiers_subset_of_step order (above rfl)) settled more (settled.finds_iff.mp step)
    · subst bottom
      refine ⟨fun next found => many.mem_of_finds (starts next found), fun _ => ⟨?_, ?_⟩⟩
      · intro part provider member _ next step
        exact part (few.mem_of_step member step)
      · exact few.subset_of_step many starts

def workshop : Catalog :=
  Catalog.empty.withResource ((((Declaration.module "acme").withNested
    ((Declaration.resource "main").withInclude .build (.of .key "tool"))).withNested
    ((Declaration.resource "tool").withInclude .build (.of .key "base"))).withNested
    (.resource "base"))

def expandedAtAll (id : ResourceId) : List Request :=
  Scope.all.map (.allProviders id · true true)

/-- What builds the tool is needed to build with it, and not to run. -/
theorem build_not_subset_runtime_workshop :
    ∃ library, build (.ofRoot ⟨"/"⟩) "now" .none workshop = .ok library ∧
      library.Answered (expandedAtAll 2) 0 (.allProviders 2 .build true true)
        (.resources [4, 3]) ∧
      library.Answered (expandedAtAll 2) 1 (.allProviders 2 .runtime true true)
        (.resources [3]) ∧
      library.Answered (expandedAtAll 2) 2 (.allProviders 2 .test true true) (.resources [3]) ∧
      ¬[4, 3] ⊆ [3] := by
  refine ⟨_, rfl, ⟨rfl, _, rfl⟩, ⟨rfl, _, rfl⟩, ⟨rfl, _, rfl⟩, by decide⟩

theorem aggregation_of_session_workshop :
    ∃ library, build (.ofRoot ⟨"/"⟩) "now" .none workshop = .ok library ∧
      library.Answered (expandedAtAll 2) 0 (.allProviders 2 .build true true)
        (.resources [4, 3]) ∧
      library.Answered (expandedAtAll 2) 1 (.allProviders 2 .runtime true true)
        (.resources [3]) ∧
      ∃ provider ∈ [4, 3], provider ∈ [3] ∧ ∃ next, next ∉ [3] ∧
        Query.Finds library (library.after (expandedAtAll 2))
          (Query.aggregated provider .build true) next := by
  obtain ⟨library, built, size, inner, outer⟩ : ∃ library,
      build (.ofRoot ⟨"/"⟩) "now" .none workshop = .ok library ∧ library.frozen.size = 5 ∧
      library.Answered (expandedAtAll 2) 0 (.allProviders 2 .build true true)
        (.resources [4, 3]) ∧
      library.Answered (expandedAtAll 2) 1 (.allProviders 2 .runtime true true)
        (.resources [3]) :=
    ⟨_, rfl, rfl, ⟨rfl, _, rfl⟩, ⟨rfl, _, rfl⟩⟩
  have known : 2 < library.frozen.size +
      (library.after ((expandedAtAll 2).take (min 0 1))).nodes.size := by
    rw [size]
    exact Nat.lt_add_right _ (by decide)
  have closed := aggregation_of_session built (expandedAtAll 2) known (by decide) inner outer
  refine ⟨library, built, inner, outer, ?_⟩
  by_contra none
  push Not at none
  have part := ((closed.2 rfl).2 rfl).mpr fun provider member shared next found => by
    by_contra fresh
    exact none provider member shared next fresh found
  exact absurd part (by decide)

end Library
end ResourceLibrary
