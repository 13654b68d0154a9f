import ResourceLibrary.Proofs.Library.Includes

/-!
Queries that are always answered. Main statements: where every include leads somewhere, providers
are always found, and where providers are found their coordinates can be read.
-/

namespace ResourceLibrary
open Registry (Grows Reached)

namespace Query
variable {library : Library} {registry : Registry}

def Succeeds (library : Library) (answered : Bool) (before after : Registry) : Prop :=
  Reached library before → answered = true ∧ Reached library after

instance (library : Library) : Course (Succeeds library) where
  refl _ reached := ⟨rfl, reached⟩
  trans first second reached := second (first reached).2

theorem exists_answer {α : Type} {query : Query α} (moving : Moving library (Succeeds library) query)
    (reached : Reached library registry) :
    ∃ value grown, query.answer library registry = (.ok value, grown) := by
  have answered := (moving registry reached).1
  generalize query.answer library registry = reply at answered ⊢
  rcases reply with ⟨_ | value, grown⟩
  · cases answered
  · exact ⟨value, grown, rfl⟩

theorem succeeds_of_answer {α : Type} {query : Query α} (growing : Growing query)
    (answers : ∀ registry, ∃ value grown, query.answer library registry = (.ok value, grown)) :
    Moving library (Succeeds library) query := by
  intro registry reached
  obtain ⟨value, grown, given⟩ := answers registry
  rw [given]
  exact ⟨rfl, reached.grows (growing.grows given)⟩

section
variable {node : Node} {scope : Scope} {category : Option Category} {entry : Include}

theorem succeeds_included_of_parse (mode : entry.mode = .uri) {coordinate : Coordinate}
    (read : Coordinate.parse (node.properties.resolve entry.value) = .ok coordinate) :
    Moving library (Succeeds library) (included node scope category entry) := by
  have asked : Moving library (Succeeds library)
      (anonymous (node.properties.resolve entry.value) entry.properties) := by
    refine succeeds_of_answer (growing_anonymous _ _) fun registry => ?_
    obtain ⟨leaf, grown, given, _⟩ := answer_anonymous_of_parse library registry read _
    exact ⟨leaf, grown, given⟩
  unfold included
  rw [mode]
  exact moving_mapFailure asked _

theorem succeeds_included_of_resolve (mode : entry.mode ≠ .uri)
    (leads : ∀ registry, ∃ id, entry.Leads library registry node id) :
    Moving library (Succeeds library) (included node scope category entry) := by
  refine succeeds_of_answer (growing_included _ _ _ _) fun registry => ?_
  obtain ⟨id, found⟩ := leads registry
  exact ⟨id, registry, (included_eq_ok_iff mode).mpr
    ⟨(Include.leads_iff_of_ne_uri mode).mp found, rfl⟩⟩

end
end Query

def Library.Complete (library : Library) : Prop :=
  ∀ id < library.frozen.size, ∀ header tier category entry,
    (library.node .empty id).header = some header → entry ∈ header.includes tier category →
    Query.Moving library (Query.Succeeds library)
      (Query.included (library.node .empty id) tier category entry)

namespace Query
variable {library : Library} {registry : Registry} {id : ResourceId}

theorem providerCourse_of_complete (complete : library.Complete) :
    ProviderCourse library (Succeeds library) := by
  refine ⟨fun id tier category registry reached => ?_⟩
  rw [declared, answer_bind, answer_node]
  simp only
  cases stated : (library.node registry id).header with
  | none => exact ⟨rfl, reached⟩
  | some header =>
    have named : Moving library (Succeeds library) ((header.includes tier category).mapM
        (included (library.node registry id) tier category)) := by
      refine moving_mapM fun entry member => ?_
      have frozen := lt_frozen_of_includes reached stated member
      rw [Library.node_eq_of_lt frozen registry .empty] at stated ⊢
      exact complete id frozen header tier category entry stated member
    have rest : ∀ found : List ResourceId, Moving library (Succeeds library) (pure (distinct (found ++
        if tier = .runtime && isImplicit category then (library.node registry id).children
        else []))) := fun _ => moving_pure _
    exact moving_bind named rest registry reached

theorem exists_providers_of_complete (complete : library.Complete)
    (reached : Reached library registry) (id : ResourceId) (scope : Scope) (expand sorted : Bool) :
    ∃ ids grown, (providers id scope expand sorted).answer library registry = (.ok ids, grown) := by
  have := providerCourse_of_complete complete
  exact exists_answer (moving_providers id scope expand sorted) reached

theorem parse_of_providers (tree : library.arena.IsTree) (reached : Reached library registry)
    {header : Header} (stated : (library.node registry id).header = some header) {entry : Include}
    (member : entry ∈ header.includes .runtime none) (mode : entry.mode = .uri)
    {expand sorted : Bool} {ids : List ResourceId} {grown : Registry}
    (given : (providers id .runtime expand sorted).answer library registry = (.ok ids, grown)) :
    ∃ coordinate,
      Coordinate.parse ((library.node registry id).properties.resolve entry.value) =
        .ok coordinate := by
  obtain ⟨found, middle, asked, _⟩ := answer_bind_eq_ok_iff.mp given
  obtain ⟨starts, early, direct, _⟩ := answer_bind_eq_ok_iff.mp asked
  rw [localProviders_eq_declared (by decide)] at direct
  have grows := (growing_declared id .runtime none).grows direct
  obtain ⟨leaf, _, leads⟩ := exists_mem_of_declared tree reached stated direct .refl member
  rw [Include.leads_uri_iff mode] at leads
  obtain ⟨coordinate, _, _, stored⟩ := (reached.grows grows).stored leads
  exact ⟨coordinate, stored.read⟩

end Query
end ResourceLibrary
