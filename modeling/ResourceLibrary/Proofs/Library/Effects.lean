import ResourceLibrary.Proofs.Library.Motion
import ResourceLibrary.Proofs.Library.Registration

/-!
Growth of the registry. Only `anonymous` writes to it, and what it writes is a batch. Main
statements: every query only adds batches, also where it fails; computations whose parts answer the
same while the registry grows answer the same.
-/

namespace ResourceLibrary.Query
variable {α β : Type}

theorem answer_anonymous (urn : String) (properties : Properties) (library : Library)
    (registry : Registry) :
    (anonymous urn properties).answer library registry =
      match registry.urns.lookup urn, Coordinate.parse urn with
      | some leaf, _ => (.ok leaf, registry)
      | none, .ok coordinate => (.ok (registry.next library + coordinate.names.length),
          registry.withBatch library urn coordinate properties)
      | none, .error failure => (.error failure, registry) := by
  have got : (get : Query Registry).answer library registry = (.ok registry, registry) := rfl
  have asked : (read : Query Library).answer library registry = (.ok library, registry) := rfl
  unfold anonymous
  rw [answer_bind, got]
  simp only
  cases found : registry.urns.lookup urn with
  | some leaf => rfl
  | none =>
    simp only
    rw [answer_bind, asked]
    simp only
    rw [answer_bind, answer_ofExcept]
    cases read : Coordinate.parse urn with
    | ok coordinate =>
      rw [Registry.register_of_parse library registry read properties]
      rfl
    | error failure =>
      rw [Registry.register_of_not_parse library registry read properties]

def Growing (query : Query α) : Prop :=
  ∀ library, Moving library (fun _ => Registry.Grows library) query

theorem Growing.grows {query : Query α} (growing : Growing query) {library : Library}
    {registry grown : Registry} {result : Except Failure α}
    (given : query.answer library registry = (result, grown)) :
    Registry.Grows library registry grown := by
  have grows := growing library registry
  rwa [given] at grows

instance (library : Library) : Faulting fun _ => Registry.Grows library where
  refl _ := .refl
  trans := .trans
  fault _ := .refl

theorem growing_pure (value : α) : Growing (pure value) :=
  fun _ => moving_pure value

theorem growing_bind {query : Query α} {next : α → Query β} (first : Growing query)
    (rest : ∀ value, Growing (next value)) : Growing (query >>= next) := fun library =>
  moving_bind (first library) fun value => rest value library

theorem growing_mapFailure {query : Query α} (growing : Growing query)
    (change : Failure → Failure) : Growing (query.mapFailure change) := fun library =>
  moving_mapFailure (growing library) change

theorem growing_mapM {step : α → Query β} (growing : ∀ item, Growing (step item))
    (items : List α) : Growing (items.mapM step) := fun library =>
  moving_mapM fun item _ => growing item library

theorem growing_foldlM {step : β → α → Query β} (growing : ∀ value item, Growing (step value item))
    (items : List α) (value : β) : Growing (items.foldlM step value) := fun library =>
  moving_foldlM (fun value item => growing value item library) items value

theorem growing_visit {next : α → Query (List α)} [DecidableEq α]
    (growing : ∀ node, Growing (next node)) (depth : Nat) (above : List α) (walk : Walk α)
    (node : α) : Growing (Walk.visit next depth above walk node) := fun library =>
  moving_visit (fun node => growing node library) depth above walk node

theorem growing_lookup (start : ResourceId) (reference : String) :
    Growing (lookup start reference) :=
  fun _ => moving_lookup start reference

theorem growing_outerModules (module : Node) (needed : ResourceId) :
    Growing (outerModules module needed) :=
  fun _ => moving_outerModules module needed

/-- What `anonymous` writes is a batch, and where it fails it writes nothing. -/
theorem growing_anonymous (urn : String) (properties : Properties) :
    Growing (anonymous urn properties) := by
  intro library registry
  rw [answer_anonymous]
  split
  · exact .refl
  · next fresh read => exact .single (.batch properties fresh read)
  · exact .refl

theorem growing_included (node : Node) (scope : Scope) (category : Option Category)
    (entry : Include) : Growing (included node scope category entry) := by
  unfold included
  split
  · exact growing_mapFailure (growing_anonymous _ _) _
  · refine growing_bind (fun _ => moving_nodes) ?_
    intro _
    exact growing_mapFailure (growing_lookup _ _) _

theorem growing_declared (id : ResourceId) (tier : Scope) (category : Option Category) :
    Growing (declared id tier category) := by
  refine growing_bind (fun _ => moving_node id) ?_
  intro node
  split
  · exact growing_pure _
  · exact growing_bind (growing_mapM (growing_included node tier category) _) fun _ =>
      growing_pure _

instance (library : Library) : ProviderCourse library fun _ => Registry.Grows library :=
  ⟨fun id tier category => growing_declared id tier category library⟩

theorem growing_closure {next : ResourceId → Query (List ResourceId)}
    (growing : ∀ node, Growing (next node)) (starts : List ResourceId) :
    Growing (closure starts next) := fun library =>
  moving_closure (fun node => growing node library) starts

theorem growing_needs (id : ResourceId) : Growing (needs id) :=
  fun _ => moving_needs id

theorem growing_outerNeeds (module : Node) (child : ResourceId) :
    Growing (do return (← (← needs child).mapM (outerModules module)).flatten) :=
  fun _ => moving_outerNeeds module child

theorem growing_neededModules (module : Node) : Growing (neededModules module) :=
  fun _ => moving_neededModules module

theorem growing_localProviders (id : ResourceId) (tier : Scope) (category : Option Category) :
    Growing (localProviders id tier category) :=
  fun _ => moving_localProviders id tier category

theorem growing_aggregated (id : ResourceId) (scope : Scope) (withBuild : Bool) :
    Growing (aggregated id scope withBuild) :=
  fun _ => moving_aggregated id scope withBuild

theorem growing_expanded (providers : List ResourceId) (scope : Scope) :
    Growing (expanded providers scope) :=
  fun _ => moving_expanded providers scope

theorem growing_tierProviders (id : ResourceId) (scope : Scope) (expand : Bool)
    (category : Option Category) : Growing (tierProviders id scope expand category) :=
  fun _ => moving_tierProviders id scope expand category

theorem growing_aggregatedProviders (id : ResourceId) (scope : Scope) (expand withBuild : Bool) :
    Growing (aggregatedProviders id scope expand withBuild) :=
  fun _ => moving_aggregatedProviders id scope expand withBuild

theorem growing_moduleStep (id : ResourceId) (origin : ResourcePath) (scope : Scope)
    (current : ResourceId) : Growing (moduleStep id origin scope current) :=
  fun _ => moving_moduleStep id origin scope current

theorem growing_sortEdges (members : List ResourceId) (scope : Scope) (id : ResourceId) :
    Growing (sortEdges members scope id) :=
  fun _ => moving_sortEdges members scope id

theorem growing_sort (candidates : List ResourceId) (scope : Scope) (strict : Bool) :
    Growing (sort candidates scope strict) :=
  fun _ => moving_anySort candidates scope strict

theorem growing_selectModules (id : ResourceId) (token : String) :
    Growing (selectModules id token) :=
  fun _ => moving_selectModules id token

theorem growing_selectTokens (deep : Bool) (id : ResourceId) (tokens : List String) :
    Growing (selectTokens deep id tokens) :=
  fun _ => moving_selectTokens deep id tokens

theorem growing_selectIds (id : ResourceId) (criteria : String) (onlyLocal : Bool) :
    Growing (selectIds id criteria onlyLocal) :=
  fun _ => moving_selectIds id criteria onlyLocal

theorem growing_arranged (ids : List ResourceId) (scope : Scope) (sorted : Bool) :
    Growing (arranged ids scope sorted) :=
  fun _ => moving_arranged ids scope sorted

theorem growing_providers (id : ResourceId) (scope : Scope) (expand sorted : Bool) :
    Growing (providers id scope expand sorted) :=
  fun _ => moving_providers id scope expand sorted

theorem growing_allProviders (id : ResourceId) (scope : Scope) (expand sorted : Bool) :
    Growing (allProviders id scope expand sorted) :=
  fun _ => moving_allProviders id scope expand sorted

theorem growing_classpath (id : ResourceId) (scope : Scope) : Growing (classpath id scope) :=
  fun _ => moving_classpath id scope

theorem growing_entry (candidate : ResourceId) :
    Growing (do return (candidate, ← aggregated candidate .test true)) :=
  growing_bind (growing_aggregated candidate .test true) fun _ => growing_pure _

theorem growing_provided : Growing provided :=
  fun _ => moving_provided

theorem growing_exportModule (id : ResourceId) : Growing (exportModule id) :=
  fun _ => moving_exportModule id

section
variable {library : Library} {registry : Registry}
open Registry (Grows)

def Like (library : Library) (registry : Registry) (first second : Query α) : Prop :=
  first.answer library registry = second.answer library registry

theorem Like.refl (query : Query α) : Like library registry query query := rfl

theorem Like.symm {first second : Query α} (like : Like library registry first second) :
    Like library registry second first :=
  Eq.symm like

theorem like_bind {first second : Query α} {next further : α → Query β}
    (like : Like library registry first second)
    (rest : ∀ value grown, second.answer library registry = (.ok value, grown) →
      Like library grown (next value) (further value)) :
    Like library registry (first >>= next) (second >>= further) := by
  unfold Like
  rw [answer_bind, answer_bind, like]
  rcases reply : second.answer library registry with ⟨_ | value, grown⟩
  · rfl
  · exact rest value grown reply

theorem like_bind_of_pure {first : Query α} {value : α}
    {next : α → Query β} {query : Query β} (known : Like library registry first (pure value))
    (rest : Like library registry (next value) query) :
    Like library registry (first >>= next) query := by
  unfold Like
  rw [answer_bind, known, answer_pure]
  exact rest

theorem like_mapM {step further : α → Query β} (growing : ∀ item, Growing (further item))
    {items : List α} (each : ∀ item ∈ items, ∀ after, Grows library registry after →
      Like library after (step item) (further item)) :
    Like library registry (items.mapM step) (items.mapM further) := by
  induction items generalizing registry with
  | nil => rfl
  | cons item rest ih =>
    rw [List.mapM_cons, List.mapM_cons]
    refine like_bind (each item (by simp) registry .refl) fun value grown given => ?_
    have since := (growing item).grows given
    refine like_bind (ih fun other member after grows => ?_) fun _ _ _ => .refl _
    exact each other (by simp [member]) after (since.trans grows)

theorem like_foldlM {step further : β → α → Query β}
    (growing : ∀ value item, Growing (further value item)) {items : List α}
    (each : ∀ item ∈ items, ∀ value after, Grows library registry after →
      Like library after (step value item) (further value item)) (value : β) :
    Like library registry (items.foldlM step value) (items.foldlM further value) := by
  induction items generalizing registry value with
  | nil => rfl
  | cons item rest ih =>
    rw [List.foldlM_cons, List.foldlM_cons]
    refine like_bind (each item (by simp) value registry .refl) fun next grown given => ?_
    have since := (growing value item).grows given
    exact ih (fun other member value after grows =>
      each other (by simp [member]) value after (since.trans grows)) next

/-- A fold whose steps turn out to be known values, as long as a property of the value is kept. -/
theorem like_foldl {step : β → α → Query β} {known : β → α → β}
    {good : β → Prop} {items : List α}
    (each : ∀ item ∈ items, ∀ value, good value → good (known value item) ∧
      Like library registry (step value item) (pure (known value item)))
    {value : β} (start : good value) :
    Like library registry (items.foldlM step value) (pure (items.foldl known value)) := by
  induction items generalizing value with
  | nil => exact .refl _
  | cons item rest ih =>
    obtain ⟨kept, here⟩ := each item (by simp) value start
    rw [List.foldlM_cons, List.foldl_cons]
    exact like_bind_of_pure here (ih (fun other member => each other (by simp [member])) kept)

theorem like_gather {providers further : Scope → Query (List ResourceId)}
    (growing : ∀ tier, Growing (further tier)) {tiers : List Scope}
    (each : ∀ tier ∈ tiers, ∀ after, Grows library registry after →
      Like library after (providers tier) (further tier)) :
    Like library registry (gather tiers providers) (gather tiers further) :=
  like_bind (like_mapM growing each) fun _ _ _ => .refl _

end

end ResourceLibrary.Query
