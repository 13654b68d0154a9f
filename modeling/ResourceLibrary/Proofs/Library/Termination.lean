import ResourceLibrary.Proofs.Library.ConsumersReturning

/-!
Every provider query returns. Main statement: below some number of levels no call is left open, and
none for what a module needs is made while another one is under way; a walk asks each node at most
once for its neighbours; and a query registers at most one resource for each coordinate that is
cited.
-/

namespace ResourceLibrary
open Registry (Grows Reached)
open Call (unfold body)

namespace Query
variable {library : Library} {again : ResourceId → Query (List ResourceId)}
  {deeper : Bool → (call : Call) → Query call.Result} {levels : Nat}

section
variable {start : Registry} (tree : library.arena.IsTree) (reached : Reached library start)
  {before : Registry} (since : Grows library start before) {depth : Nat}
  (deep : start.next library < depth)
include tree reached since deep

theorem like_exportDependencies {boundary id : ResourceId} (known : id < start.next library)
    (high : 2 * depth + 13 ≤ levels) :
    Like library before
      (Call.exportDependencies (unfold again deeper levels false) boundary id)
      (exportDependencies boundary id) := by
  refine like_bind (like_mapM ?_ fun category _ after onward => ?_) fun _ _ _ => .refl _
  · exact fun category _ => moving_bind (moving_tierProviders id .runtime true (some category))
      fun _ => moving_bind moving_nodes fun _ => moving_pure _
  · have steady := steady_localProviders tree reached .runtime (some category)
    have near := steady.lasts (since.trans onward) (itself_of_lt reached known)
    exact like_bind (like_tierProviders_of_near tree reached (since.trans onward) deep near high)
      fun _ _ _ => .refl _

theorem like_exportNode {boundary : ResourceId} (room : Nat) {bound : Nat} (enough : room ≤ bound)
    {id : ResourceId} (known : id < start.next library) (space : start.next library < room + id)
    (high : 2 * depth + 13 + room ≤ levels) :
    Like library before (unfold again deeper levels false (.exportNode boundary id))
      (exportNode boundary bound id) := by
  induction room generalizing bound levels before id with
  | zero =>
    unfold ResourceId at *
    omega
  | succ room ih =>
    obtain ⟨lower, rfl⟩ : ∃ lower, bound = lower + 1 := ⟨bound - 1, by omega⟩
    refine like_of_body (by omega) rfl ?_
    rw [body, exportNode]
    refine like_bind (.refl _) fun node last asked => ?_
    cases asked
    split
    · refine like_bind (like_mapM ?_ fun child member after onward => ?_) fun _ _ _ => .refl _
      · exact fun child _ => moving_exportNode boundary lower child
      · rw [since.node known] at member
        obtain ⟨later, inside⟩ := lt_of_mem_children tree reached known member
        refine ih (since.trans onward) (by omega) inside ?_ (by omega)
        unfold ResourceId at *
        omega
    · exact like_bind (like_exportDependencies tree reached since deep known (by omega))
        fun _ _ _ => .refl _

end

structure Returning (library : Library) (registry : Registry)
    (run : (call : Call) → Query call.Result) : Prop where
  localProviders : ∀ id < registry.next library, ∀ tier category,
    Like library registry (run (.localProviders id tier category))
      (localProviders id tier category)
  tierProviders : ∀ id < registry.next library, ∀ scope expand category,
    Like library registry (run (.tierProviders id scope expand category))
      (tierProviders id scope expand category)
  aggregatedProviders : ∀ id < registry.next library, ∀ scope expand withBuild,
    Like library registry (run (.aggregatedProviders id scope expand withBuild))
      (aggregatedProviders id scope expand withBuild)
  expanded : ∀ ids : List ResourceId, (∀ id ∈ ids, id < registry.next library) → ∀ scope,
    Like library registry (run (.expanded ids scope)) (expanded ids scope)
  providerModules : ∀ id < registry.next library, ∀ scope,
    Like library registry (run (.providerModules id scope)) (providerModules id scope)
  sort : ∀ ids : List ResourceId, (∀ id ∈ ids, id < registry.next library) → ∀ scope strict,
    Like library registry (run (.sort ids scope strict)) (sort ids scope strict)
  directConsumers : ∀ id < registry.next library,
    Like library registry (run (.directConsumers id)) (do return directConsumers (← provided) id)
  consumers : ∀ id < registry.next library, ∀ expand sorted,
    Like library registry (run (.consumers id expand sorted)) (consumers id expand sorted)
  exportNode : ∀ boundary, ∀ id < registry.next library,
    Like library registry (run (.exportNode boundary id))
      (do exportNode boundary (← depth) id)

theorem returning_unfold {start : Registry} (tree : library.arena.IsTree)
    (reached : Reached library start) {depth : Nat} (deep : start.next library < depth)
    (high : 4 * depth + 17 ≤ levels) :
    Returning library start (unfold again deeper levels false) := by
  have near : ∀ id < start.next library, Itself library (World.diagonal reached).Near start id :=
    fun id known => itself_of_lt reached known
  constructor
  case localProviders =>
    exact fun id known tier category =>
      like_localProviders_of_near tree reached .refl deep (near id known) (by omega)
  case tierProviders =>
    exact fun id known scope expand category =>
      like_tierProviders_of_near tree reached .refl deep (near id known) (by omega)
  case aggregatedProviders =>
    exact fun id known scope expand withBuild =>
      like_aggregatedProviders_of_near tree reached .refl deep (near id known) (by omega)
  case expanded =>
    exact fun ids known scope => like_expanded_of_near tree reached .refl deep
      (fun id member => near id (known id member)) (by omega)
  case providerModules =>
    exact fun id known scope => like_providerModules tree reached .refl deep known (by omega)
  case sort =>
    exact fun ids known scope strict => like_sort tree reached .refl deep known (by omega)
  case directConsumers =>
    exact fun id known => like_directConsumers tree reached .refl deep (by omega)
  case consumers =>
    exact fun id known expand sorted => like_consumers tree reached .refl deep high
  case exportNode =>
    intro boundary id known
    have space : start.next library < start.next library + 1 + id :=
      Nat.lt_add_right id (Nat.lt_succ_self _)
    refine like_exportNode tree reached .refl deep (start.next library + 1) (Nat.le_refl _) known
      space ?_
    unfold ResourceId at *
    omega

end Query

namespace Library

/-- For every query there is a number of levels below which no call is left open, whatever the calls
there do and whatever a search for needed modules does that is begun within another one. Whatever
the neighbours are, a walk asks each node at most once for them; and what a request registers, other
than one for a coordinate, are resources of cited coordinates that had none before, one for each. -/
theorem provider_queries_return {settings : Settings} {host : Host} {load : ImportLoader}
    {catalog : Catalog} {library : Library}
    (built : build settings host load catalog = .ok library) (session : List Request) :
    let registry := library.after session
    (∃ levels, ∀ more, levels ≤ more → ∀ again deeper,
      Query.Returning library registry (Call.unfold again deeper more false)) ∧
    (∀ depth next starts noted,
      (∃ asked : List ResourceId, asked.Nodup ∧
        (Walk.postOrder depth (Noting.asking next) starts).answer library noted registry =
          (((Walk.postOrder depth next starts).answer library registry).1, noted ++ asked,
            ((Walk.postOrder depth next starts).answer library registry).2)) ∧
      ∃ asked : List ResourceId, asked.Nodup ∧
        (Walk.preOrder depth (Noting.asking next) starts).answer library noted registry =
          (((Walk.preOrder depth next starts).answer library registry).1, noted ++ asked,
            ((Walk.preOrder depth next starts).answer library registry).2)) ∧
    ∀ request : Request, ¬request.Registers →
      let grown := (request.perform.answer library registry).2
      ∀ leaf, registry.next library ≤ leaf → leaf < grown.next library →
        (library.node grown leaf).isModule = false →
        ∃ urn, library.Cites urn ∧ registry.urns.lookup urn = none ∧
          grown.urns.lookup urn = some leaf := by
  have tree := isTree_of_build built
  have reached := reached_after library session
  refine ⟨⟨4 * ((library.after session).next library + 1) + 17, fun more enough again deeper => ?_⟩,
    fun depth next starts noted => ?_, fun request included leaf fresh known plain => ?_⟩
  · exact Query.returning_unfold tree reached (Nat.lt_succ_self _) enough
  · exact ⟨Noting.answer_postOrder_asking next depth starts noted library _,
      Noting.answer_preOrder_asking next depth starts noted library _⟩
  · exact (Request.gathers reached included).leaf fresh known plain

theorem provider_queries_return_circle :
    ∃ library levels, build (.ofRoot ⟨"/"⟩) "now" .none circle = .ok library ∧
      ∀ again deeper, (Call.unfold again deeper levels false
        (.aggregatedProviders 2 .test true true)).answer library (library.after []) =
          (.ok [2, 3], library.after []) := by
  obtain ⟨library, built, size, given⟩ : ∃ library,
      build (.ofRoot ⟨"/"⟩) "now" .none circle = .ok library ∧ library.frozen.size = 4 ∧
      (Query.aggregatedProviders 2 .test true true).answer library .empty =
        (.ok [2, 3], .empty) := ⟨_, rfl, rfl, rfl⟩
  obtain ⟨⟨levels, returning⟩, _, _⟩ := provider_queries_return built []
  refine ⟨library, levels, built, fun again deeper => ?_⟩
  have known : 2 < (library.after []).next library := by
    change 2 < library.frozen.size + 0
    rw [size]
    decide
  exact ((returning levels (Nat.le_refl _) again deeper).aggregatedProviders 2 known .test true
    true).trans given

end Library
end ResourceLibrary
