import ResourceLibrary.Proofs.Library.Independence

/-!
What numbers stand for. Main statement: at any point of a session every number stands for one node,
for good, answers hold no others, and the registered ones lie in batches, one for each coordinate.
-/

namespace ResourceLibrary
open Registry (Reached)

def Answer.ids : Answer → List ResourceId
  | resource id => [id]
  | resources ids => ids
  | text _ | declaration _ => []

namespace Query

theorem answer_lookup (start : ResourceId) (reference : String) (library : Library)
    (registry : Registry) :
    (lookup start reference).answer library registry =
      (resolve (library.node registry) start reference, registry) := by
  rw [lookup, answer_bind, answer_nodes]
  exact answer_ofExcept _ library registry

theorem answer_lookupModule (start : ResourceId) (reference : String) (library : Library)
    (registry : Registry) :
    (lookupModule start reference).answer library registry =
      (resolveModule (library.node registry) start reference, registry) := by
  rw [lookupModule, answer_bind, answer_nodes]
  exact answer_ofExcept _ library registry

theorem found_of_answer {query : Query ResourceId} {library : Library}
    {registry grown : Registry} {result : Except Failure ResourceId} {answer : Answer}
    (asked : query.answer library registry = (result, registry))
    (given : (do return Answer.resource (← query)).answer library registry = (.ok answer, grown)) :
    ∃ found, result = .ok found ∧ answer = .resource found ∧ grown = registry := by
  rw [answer_bind, asked] at given
  cases result with
  | error failure => cases given
  | ok found =>
    cases given
    exact ⟨found, rfl, rfl, rfl⟩

end Query

section
variable {library : Library} (tree : library.arena.IsTree) {registry : Registry}
  (reached : Reached library registry)
include tree reached

theorem Registry.Reached.child_lt_next {id : ResourceId} (known : id < registry.next library)
    {name : String} {child : ResourceId}
    (below : (library.node registry id).child? name = some child) :
    child < registry.next library := by
  by_cases frozen : id < library.frozen.size
  · obtain ⟨inner, there, _⟩ := tree.child (Library.node?_of_lt frozen registry) below
    exact Nat.lt_add_right _ (Library.lt_of_node? there)
  · obtain ⟨urn, level, inside⟩ := reached.cover (Nat.le_of_not_lt frozen) known
    obtain ⟨down, within⟩ := (reached.links inside).2.2 name child below
    exact (reached.bounds within).2

theorem descend_lt_next {start found : ResourceId} {reference : String} {names : List String} :
    ∀ {passed : List String} {id : ResourceId}, id < registry.next library →
      descend (library.node registry) start reference passed id names = .ok found →
      found < registry.next library := by
  induction names with
  | nil =>
    intro passed id known done
    cases done
    exact known
  | cons name rest ih =>
    intro passed id known done
    rw [descend] at done
    split at done
    · cases done
    · split at done
      · cases done
      · next child below => exact ih (reached.child_lt_next tree known below) done

theorem resolve_lt_next {start found : ResourceId} (known : start < registry.next library)
    {reference : String} (done : resolve (library.node registry) start reference = .ok found) :
    found < registry.next library := by
  unfold resolve at done
  cases read : ResourcePath.parse reference with
  | error failure =>
    rw [read] at done
    cases done
  | ok path =>
    rw [read] at done
    exact descend_lt_next tree reached known done

theorem resolveModule_lt_next {start found : ResourceId} (known : start < registry.next library)
    {reference : String}
    (done : resolveModule (library.node registry) start reference = .ok found) :
    found < registry.next library := by
  unfold resolveModule at done
  split at done
  · cases done
  · cases done
  · next id resolved =>
    split at done
    · cases done
      exact resolve_lt_next tree reached known resolved
    · cases done

omit tree reached in
theorem Answer.lt_next_of_like {base world : World library} (since : base.Later world)
    {sorted : Bool} {a b : Answer} (like : Answer.Like base sorted world a b) :
    ∀ id ∈ a.ids, id < world.left.next library := by
  have listed : ∀ {xs ys}, List.Forall₂ (base.Near world) xs ys →
      ∀ id ∈ xs, id < world.left.next library := by
    intro xs ys both id member
    obtain ⟨other, _, near⟩ := exists_mem_of_forall₂ both member
    exact (near.same since).lt_next.1
  cases a with
  | resource i =>
    cases b with
    | resource j =>
      intro id member
      rw [List.mem_singleton.mp member]
      exact (World.Near.same since like).lt_next.1
    | _ => exact like.elim
  | resources xs =>
    cases b with
    | resources ys =>
      cases sorted with
      | true => exact listed like
      | false =>
        obtain ⟨⟨zs, both, _⟩, _⟩ := like
        exact listed both
    | _ => exact like.elim
  | text => exact fun id member => nomatch member
  | declaration => exact fun id member => nomatch member

theorem Request.lt_next_of_perform {request : Request}
    (known : ∀ id ∈ request.subjects, id < registry.next library) {answer : Answer}
    {grown : Registry} (given : request.perform.answer library registry = (.ok answer, grown)) :
    ∀ id ∈ answer.ids, id < grown.next library := by
  -- Comparing a registry with itself tells what is found, but not below anonymous modules.
  have compared : request.origins = [] → ∀ id ∈ answer.ids, id < grown.next library := by
    intro none
    have agree := Query.agree_perform tree (World.Later.refl (World.diagonal reached)) request
      (fun id member => World.diagonal_same reached (known id member)) (by simp [none])
    obtain ⟨later, _, since, rfl, _, like⟩ := Query.answered_of_agree agree given
    exact Answer.lt_next_of_like since like
  cases request
  case resource start reference =>
    have asked := Query.answer_lookup start reference library registry
    obtain ⟨found, done, rfl, rfl⟩ := Query.found_of_answer asked given
    intro id member
    rw [List.mem_singleton.mp member]
    exact resolve_lt_next tree reached (known start (by simp [subjects])) done
  case module start reference =>
    have asked := Query.answer_lookupModule start reference library registry
    obtain ⟨found, done, rfl, rfl⟩ := Query.found_of_answer asked given
    intro id member
    rw [List.mem_singleton.mp member]
    exact resolveModule_lt_next tree reached (known start (by simp [subjects])) done
  case exportModule start =>
    rw [perform, Query.answer_bind] at given
    split at given
    · cases given
      exact fun id member => absurd member List.not_mem_nil
    · cases given
  all_goals exact compared rfl

end

namespace Query

/-- Asking for a coordinate gives the number that is kept for it from then on; failing to leaves the
registry as it was. -/
theorem anonymous_cases (urn : String) (properties : Properties) (library : Library)
    (registry : Registry) :
    (∃ leaf grown, (anonymous urn properties).answer library registry = (.ok leaf, grown) ∧
      grown.urns.lookup urn = some leaf) ∨
    ∃ failure, (anonymous urn properties).answer library registry = (.error failure, registry) := by
  rw [answer_anonymous]
  split
  · next found => exact .inl ⟨_, _, rfl, found⟩
  · next fresh read => exact .inl ⟨_, _, rfl, by rw [Registry.lookup_withBatch, if_pos rfl]⟩
  · exact .inr ⟨_, rfl⟩

theorem answer_anonymous_of_lookup {urn : String} {registry : Registry} {leaf : ResourceId}
    (found : registry.urns.lookup urn = some leaf) (properties : Properties) (library : Library) :
    (anonymous urn properties).answer library registry = (.ok leaf, registry) := by
  rw [answer_anonymous, found]

end Query

namespace Library

/-- At any point of a session the numbers run without gaps, frozen nodes first; what a number stands
for stays; a registered coordinate has one resource of its own in a batch that is closed under
parents and children; answers name known numbers; and a coordinate that cannot be registered changes
nothing. -/
theorem registry_of_session {settings : Settings} {host : Host} {load : ImportLoader}
    {catalog : Catalog} {library : Library}
    (built : build settings host load catalog = .ok library) (requests : List Request) :
    let registry := library.after requests
    let node := library.node registry
    let next := library.frozen.size + registry.nodes.size
    (∀ id < next, (node id).id = id ∧
      (id < library.frozen.size ∧ library.frozen[id]? = some (node id) ∨
        ∃ urn level, Registry.Within registry urn level id)) ∧
    (∀ more, let later := library.after (requests ++ more)
      next ≤ library.frozen.size + later.nodes.size ∧
      (∀ id < next, library.node later id = node id) ∧
      ∀ urn leaf, registry.urns.lookup urn = some leaf → later.urns.lookup urn = some leaf) ∧
    (∀ urn leaf, registry.urns.lookup urn = some leaf →
      leaf < next ∧ (node leaf).isAnonymous = true ∧ (node leaf).isModule = false ∧
      ∃ coordinate, Coordinate.parse urn = .ok coordinate ∧
        ResourcePath.parse coordinate.path = .ok (node leaf).path) ∧
    (∀ urn other leaf, registry.urns.lookup urn = some leaf →
      registry.urns.lookup other = some leaf → urn = other) ∧
    (∀ (request : Request) answer grown, (∀ id ∈ request.subjects, id < next) →
      request.perform.answer library registry = (.ok answer, grown) →
      ∀ id ∈ answer.ids, id < library.frozen.size + grown.nodes.size) ∧
    (∀ urn properties,
      (∃ leaf grown, (Query.anonymous urn properties).answer library registry = (.ok leaf, grown) ∧
        ∀ more changed,
          (Query.anonymous urn changed).answer library (library.afterFrom grown more) =
            (.ok leaf, library.afterFrom grown more)) ∨
      ∃ failure, (Query.anonymous urn properties).answer library registry =
        (.error failure, registry)) ∧
    (∀ urn level id, Registry.Within registry urn level id →
      library.frozen.size ≤ id ∧ id < next ∧
      (∀ other away, Registry.Within registry other away id → other = urn ∧ away = level) ∧
      (∀ above, (node id).parent = some above →
        ∃ up, Registry.Within registry urn up above) ∧
      ∀ name child, (node id).child? name = some child →
        ∃ down, Registry.Within registry urn down child) := by
  intro registry node next
  have tree := isTree_of_build built
  have reached := reached_after library requests
  refine ⟨?dense, ?stable, ?leaf, ?apart, ?given, ?asked, ?batches⟩
  case dense =>
    intro id known
    refine ⟨reached.own tree known, ?_⟩
    by_cases frozen : id < library.frozen.size
    · refine .inl ⟨frozen, ?_⟩
      rw [← node?_arena]
      exact node?_of_lt frozen registry
    · exact .inr (reached.cover (Nat.le_of_not_lt frozen) known)
  case stable =>
    intro more
    rw [after_append]
    have grows := library.grows_afterFrom registry more
    refine ⟨grows.next_le, ?_, ?_⟩
    · exact fun id known => grows.node known
    · exact fun urn leaf found => grows.lookup found
  case leaf =>
    intro urn leaf found
    exact (reached.leaf found).2
  case apart =>
    intro urn other leaf found also
    exact reached.lookup_injective found also
  case given =>
    intro request answer grown known given
    exact Request.lt_next_of_perform tree reached known given
  case asked =>
    intro urn properties
    rcases Query.anonymous_cases urn properties library registry with
      ⟨leaf, grown, given, kept⟩ | failed
    · refine .inl ⟨leaf, grown, given, ?_⟩
      intro more changed
      have grows := library.grows_afterFrom grown more
      exact Query.answer_anonymous_of_lookup (grows.lookup kept) changed library
    · exact .inr failed
  case batches =>
    intro urn level id inside
    obtain ⟨low, high⟩ := reached.bounds inside
    obtain ⟨_, up, down⟩ := reached.links inside
    refine ⟨low, high, ?_, up, down⟩
    intro other away also
    exact reached.unique also inside

theorem registry_of_session_tiny :
    ∃ library, build (.ofRoot ⟨"/"⟩) "now" .none tiny = .ok library ∧
      (library.after [.anonymous "artifact:jar:org/tool#1" ∅]).urns.lookup
        "artifact:jar:org/tool#1" = some 5 ∧
      (library.node (library.after [.anonymous "artifact:jar:org/tool#1" ∅]) 5).isAnonymous =
        true := by
  obtain ⟨library, built, size⟩ : ∃ library,
      build (.ofRoot ⟨"/"⟩) "now" .none tiny = .ok library ∧ library.frozen.size = 3 :=
    ⟨_, rfl, rfl⟩
  have read : Coordinate.parse "artifact:jar:org/tool#1" =
      .ok ⟨"artifact", "jar", "org", "tool", some "1"⟩ := by cbv
  have names : (Coordinate.mk "artifact" "jar" "org" "tool" (some "1")).names.length = 2 := by cbv
  have kept : (library.after [.anonymous "artifact:jar:org/tool#1" ∅]).urns.lookup
      "artifact:jar:org/tool#1" = some 5 := by
    have fresh : Registry.empty.urns.lookup "artifact:jar:org/tool#1" = none := rfl
    have asked := Query.answer_anonymous "artifact:jar:org/tool#1" ∅ library .empty
    rw [fresh, read] at asked
    rw [after, afterFrom, List.foldl_cons, List.foldl_nil, Request.perform, Query.answer_bind,
      asked]
    simp only [Query.answer_pure]
    rw [Registry.lookup_withBatch, if_pos rfl, names, Registry.next, size]
    rfl
  obtain ⟨_, _, leaf, _⟩ := registry_of_session built [.anonymous "artifact:jar:org/tool#1" ∅]
  exact ⟨library, built, kept, (leaf _ _ kept).2.1⟩

end Library
end ResourceLibrary
