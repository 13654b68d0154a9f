import ResourceLibrary.Library.Consumption
import ResourceLibrary.Library.Export
import ResourceLibrary.Proofs.Library.Batch

/-!
What queries do to the registry. The parts of a query act one after the other, so whatever relates
the registries before and after each part relates those before and after the query. Main statement:
what the includes of single resources do to the registry is all that a query does to it.
-/

namespace ResourceLibrary.Query
variable {α β : Type}

theorem answer_pure (value : α) (library : Library) (registry : Registry) :
    (pure value : Query α).answer library registry = (.ok value, registry) := rfl

theorem answer_bind (query : Query α) (next : α → Query β) (library : Library)
    (registry : Registry) :
    (query >>= next).answer library registry =
      match query.answer library registry with
      | (.ok value, grown) => (next value).answer library grown
      | (.error failure, grown) => (.error failure, grown) := by
  simp only [answer, bind, ReaderT.bind, ExceptT.bind, ExceptT.mk, StateT.bind, ExceptT.run]
  rcases query library registry with ⟨_ | _, grown⟩ <;> rfl

theorem answer_mapFailure (change : Failure → Failure) (query : Query α) (library : Library)
    (registry : Registry) :
    (query.mapFailure change).answer library registry =
      ((query.answer library registry).1.mapError change,
        (query.answer library registry).2) := by
  simp only [mapFailure, answer, tryCatch, tryCatchThe, MonadExceptOf.tryCatch, ExceptT.tryCatch,
    ExceptT.mk, bind, StateT.bind, ExceptT.run]
  rcases query library registry with ⟨_ | _, grown⟩ <;> rfl

theorem answer_ofExcept (result : Except Failure α) (library : Library) (registry : Registry) :
    (ofExcept result).answer library registry = (result, registry) := by
  cases result <;> rfl

theorem answer_nodes (library : Library) (registry : Registry) :
    nodes.answer library registry = (.ok (library.node registry), registry) := rfl

theorem answer_node (id : ResourceId) (library : Library) (registry : Registry) :
    (node id).answer library registry = (.ok (library.node registry id), registry) := rfl

theorem answer_depth (library : Library) (registry : Registry) :
    depth.answer library registry = (.ok (registry.next library + 1), registry) := rfl

theorem answer_settle_bind (path : FilePath) (next : FilePath → Query β) (library : Library)
    (registry : Registry) :
    (settle path >>= next).answer library registry =
      (next (library.ground.settle path)).answer library registry := rfl

/-- The query leaves a registry that is related to the one it was asked with, in a way that may
depend on whether it was answered. -/
def Moving (library : Library) (rel : Bool → Registry → Registry → Prop) (query : Query α) : Prop :=
  ∀ registry, rel (query.answer library registry).1.isOk registry (query.answer library registry).2

/-- Steps of registries that can follow one another, up to the first one that fails. -/
class Course (rel : Bool → Registry → Registry → Prop) : Prop where
  refl : ∀ registry, rel true registry registry
  trans : ∀ {answered first second third}, rel true first second → rel answered second third →
    rel answered first third

class Faulting (rel : Bool → Registry → Registry → Prop) : Prop extends Course rel where
  fault : ∀ registry, rel false registry registry

class ProviderCourse (library : Library) (rel : Bool → Registry → Registry → Prop) : Prop
    extends Course rel where
  declared : ∀ id tier category, Moving library rel (declared id tier category)

section
variable {library : Library} {rel : Bool → Registry → Registry → Prop} [Course rel]

theorem moving_pure (value : α) : Moving library rel (pure value) := Course.refl

theorem moving_nodes : Moving library rel nodes := Course.refl

theorem moving_node (id : ResourceId) : Moving library rel (node id) := Course.refl

theorem moving_depth : Moving library rel depth := Course.refl

theorem moving_settle (path : FilePath) : Moving library rel (settle path) := Course.refl

theorem moving_bind {query : Query α} {next : α → Query β} (first : Moving library rel query)
    (rest : ∀ value, Moving library rel (next value)) : Moving library rel (query >>= next) := by
  intro registry
  have before := first registry
  rw [answer_bind]
  generalize query.answer library registry = reply at before ⊢
  rcases reply with ⟨_ | value, grown⟩
  · exact before
  · exact Course.trans before (rest value grown)

omit [Course rel] in
theorem moving_mapFailure {query : Query α} (moving : Moving library rel query)
    (change : Failure → Failure) : Moving library rel (query.mapFailure change) := by
  intro registry
  have same := moving registry
  rw [answer_mapFailure]
  generalize query.answer library registry = reply at same ⊢
  rcases reply with ⟨_ | value, grown⟩
  · exact same
  · exact same

theorem moving_mapM {step : α → Query β} {items : List α}
    (moving : ∀ item ∈ items, Moving library rel (step item)) :
    Moving library rel (items.mapM step) := by
  induction items with
  | nil => exact moving_pure []
  | cons item rest ih =>
    rw [List.mapM_cons]
    refine moving_bind (moving item (by simp)) fun _ => ?_
    exact moving_bind (ih fun other member => moving other (by simp [member])) fun _ =>
      moving_pure _

theorem moving_foldlM {step : β → α → Query β}
    (moving : ∀ value item, Moving library rel (step value item)) (items : List α) (value : β) :
    Moving library rel (items.foldlM step value) := by
  induction items generalizing value with
  | nil => exact moving_pure value
  | cons item rest ih =>
    rw [List.foldlM_cons]
    exact moving_bind (moving value item) fun further => ih further

theorem moving_filterM {test : α → Query Bool} (moving : ∀ item, Moving library rel (test item))
    (items : List α) : Moving library rel (items.filterM test) := by
  have aux : ∀ kept, Moving library rel (items.filterAuxM test kept) := by
    induction items with
    | nil => exact fun kept => moving_pure kept
    | cons item rest ih => exact fun kept => moving_bind (moving item) fun _ => ih _
  exact moving_bind (aux []) fun _ => moving_pure _

theorem moving_visit {next : α → Query (List α)} [DecidableEq α]
    (moving : ∀ node, Moving library rel (next node)) (depth : Nat) (above : List α) (walk : Walk α)
    (node : α) : Moving library rel (Walk.visit next depth above walk node) := by
  induction depth generalizing above walk node with
  | zero => exact moving_pure walk
  | succ depth ih =>
    rw [Walk.visit]
    split
    · exact moving_pure _
    · split
      · exact moving_pure _
      · refine moving_bind (moving node) ?_
        intro found
        exact moving_bind (moving_foldlM (ih _) found walk) fun _ => moving_pure _

theorem moving_postOrder {next : α → Query (List α)} [DecidableEq α]
    (moving : ∀ node, Moving library rel (next node)) (depth : Nat) (starts : List α) :
    Moving library rel (Walk.postOrder depth next starts) :=
  moving_foldlM (moving_visit moving depth []) starts _

theorem moving_enter {next : α → Query (List α)} [DecidableEq α]
    (moving : ∀ node, Moving library rel (next node)) (depth : Nat) (order : List α) (node : α) :
    Moving library rel (Walk.enter next depth order node) := by
  induction depth generalizing order node with
  | zero => exact moving_pure order
  | succ depth ih =>
    rw [Walk.enter]
    split
    · exact moving_pure _
    · exact moving_bind (moving node) fun found => moving_foldlM ih found _

theorem moving_outerModules (module : Node) (needed : ResourceId) :
    Moving library rel (outerModules module needed) := by
  refine moving_bind moving_nodes ?_
  intro nodes
  simp only
  repeat' split
  all_goals exact moving_pure _

end

section
variable {library : Library} {rel : Bool → Registry → Registry → Prop} [Faulting rel]

theorem moving_throw (failure : Failure) : Moving library rel (throw failure : Query α) :=
  Faulting.fault

theorem moving_ofExcept (result : Except Failure α) : Moving library rel (ofExcept result) := by
  cases result with
  | error failure => exact moving_throw failure
  | ok value => exact moving_pure value

theorem moving_lookup (start : ResourceId) (reference : String) :
    Moving library rel (lookup start reference) :=
  moving_bind moving_nodes fun _ => moving_ofExcept _

theorem moving_lookupModule (start : ResourceId) (reference : String) :
    Moving library rel (lookupModule start reference) :=
  moving_bind moving_nodes fun _ => moving_ofExcept _

theorem moving_artifactReference (reference : String) :
    Moving library rel (artifactReference reference) := by
  unfold artifactReference
  simp only
  split
  · exact moving_bind (moving_ofExcept _) fun _ => moving_pure _
  · split
    · exact moving_pure _
    · refine moving_bind (moving_ofExcept _) ?_
      intro coordinate
      refine moving_bind (moving_lookup _ _) ?_
      intro target
      refine moving_bind (moving_node target) ?_
      intro node
      exact moving_bind (moving_ofExcept _) fun _ => moving_pure _

end

section
variable {library : Library} {rel : Bool → Registry → Registry → Prop} [ProviderCourse library rel]

theorem moving_declared (id : ResourceId) (tier : Scope)
    (category : Option Category) : Moving library rel (declared id tier category) :=
  ProviderCourse.declared id tier category

theorem moving_gather {providers : Scope → Query (List ResourceId)}
    (moving : ∀ tier, Moving library rel (providers tier)) (tiers : List Scope) :
    Moving library rel (gather tiers providers) :=
  moving_bind (moving_mapM fun tier _ => moving tier) fun _ => moving_pure _

theorem moving_closure {next : ResourceId → Query (List ResourceId)}
    (moving : ∀ node, Moving library rel (next node)) (starts : List ResourceId) :
    Moving library rel (closure starts next) := by
  refine moving_bind moving_depth ?_
  intro depth
  exact moving_bind (moving_postOrder moving depth starts) fun _ => moving_pure _

theorem moving_needs (id : ResourceId) : Moving library rel (needs id) := by
  refine moving_bind (moving_gather (fun _ => moving_declared _ _ _) _) ?_
  intro starts
  exact moving_closure (fun _ => moving_gather (fun _ => moving_declared _ _ _) _) starts

theorem moving_outerNeeds (module : Node) (child : ResourceId) :
    Moving library rel (do return (← (← needs child).mapM (outerModules module)).flatten) :=
  moving_bind (moving_needs child) fun _ =>
    moving_bind (moving_mapM fun needed _ => moving_outerModules module needed) fun _ => moving_pure _

theorem moving_neededModules (module : Node) : Moving library rel (neededModules module) := by
  refine moving_bind (moving_filterM (fun _ => ?_) _) fun plain => ?_
  · exact moving_bind (moving_node _) fun _ => moving_pure _
  · exact moving_bind (moving_mapM fun child _ => moving_outerNeeds module child)
      fun _ => moving_pure _

theorem moving_localProviders (id : ResourceId) (tier : Scope) (category : Option Category) :
    Moving library rel (localProviders id tier category) := by
  refine moving_bind (moving_declared id tier category) ?_
  intro found
  refine moving_bind (moving_node id) ?_
  intro node
  split
  · exact moving_bind (moving_neededModules node) fun _ => moving_pure _
  · exact moving_pure _

theorem moving_aggregated (id : ResourceId) (scope : Scope) (withBuild : Bool) :
    Moving library rel (aggregated id scope withBuild) :=
  moving_gather (fun _ => moving_localProviders _ _ _) _

theorem moving_expanded (providers : List ResourceId) (scope : Scope) :
    Moving library rel (expanded providers scope) :=
  moving_closure (fun _ => moving_aggregated _ _ _) providers

theorem moving_tierProviders (id : ResourceId) (scope : Scope) (expand : Bool)
    (category : Option Category) : Moving library rel (tierProviders id scope expand category) := by
  refine moving_bind (moving_localProviders id scope category) ?_
  intro found
  split
  · exact moving_expanded found scope
  · exact moving_pure _

theorem moving_aggregatedProviders (id : ResourceId) (scope : Scope) (expand withBuild : Bool) :
    Moving library rel (aggregatedProviders id scope expand withBuild) := by
  refine moving_bind (moving_aggregated id scope withBuild) ?_
  intro found
  split
  · exact moving_expanded found scope
  · exact moving_pure _

theorem moving_moduleStep (id : ResourceId) (origin : ResourcePath) (scope : Scope)
    (current : ResourceId) : Moving library rel (moduleStep id origin scope current) := by
  refine moving_bind moving_nodes ?_
  intro nodes
  simp only
  split
  · exact moving_pure _
  · refine moving_bind (moving_aggregated current scope true) ?_
    intro providers
    refine moving_bind moving_nodes ?_
    intro later
    split
    · exact moving_pure _
    · exact moving_pure _

theorem moving_providerModules (id : ResourceId) (scope : Scope) :
    Moving library rel (providerModules id scope) := by
  refine moving_bind (moving_node id) ?_
  intro node
  refine moving_bind (moving_closure (moving_moduleStep id _ scope) _) fun reached => ?_
  exact moving_bind moving_nodes fun _ => moving_pure _

theorem moving_sortEdges (members : List ResourceId) (scope : Scope) (id : ResourceId) :
    Moving library rel (sortEdges members scope id) := by
  refine moving_bind (moving_aggregated id scope true) ?_
  intro found
  refine moving_bind (moving_node id) ?_
  intro node
  split
  · exact moving_bind (moving_providerModules id scope) fun _ => moving_pure _
  · exact moving_pure _

theorem moving_sort (candidates : List ResourceId) (scope : Scope) :
    Moving library rel (sort candidates scope false) := by
  refine moving_bind moving_depth ?_
  intro depth
  exact moving_bind (moving_postOrder (moving_sortEdges candidates scope) depth candidates)
    fun walk => moving_pure _

theorem moving_allModules (id : ResourceId) (withSelf : Bool) :
    Moving library rel (allModules id withSelf) := by
  refine moving_bind moving_nodes ?_
  intro nodes
  exact moving_bind moving_depth fun depth => moving_sort _ _

theorem moving_selectModules (id : ResourceId) (token : String) :
    Moving library rel (selectModules id token) := by
  refine moving_bind moving_nodes ?_
  intro nodes
  simp only
  repeat' split
  · exact moving_allModules _ _
  · exact moving_pure _
  · exact moving_pure _

theorem moving_selectLast (deep : Bool) (id : ResourceId) (token : String) :
    Moving library rel (selectLast deep id token) := by
  refine moving_bind moving_nodes ?_
  intro nodes
  simp only
  repeat' split
  · exact moving_allModules _ _
  all_goals exact moving_pure _

theorem moving_selectTokens (deep : Bool) (id : ResourceId) (tokens : List String) :
    Moving library rel (selectTokens deep id tokens) := by
  induction tokens generalizing deep id with
  | nil => exact moving_pure _
  | cons token rest ih =>
    cases rest with
    | nil => exact moving_selectLast deep id token
    | cons next further =>
      refine moving_bind (moving_selectModules id token) ?_
      intro modules
      refine moving_bind (moving_mapM fun _ _ => ih _ _) ?_
      intro below
      simp only
      split
      · exact moving_bind (ih _ _) fun here => moving_pure _
      · exact moving_bind (moving_pure _) fun here => moving_pure _

theorem moving_selectIds (id : ResourceId) (criteria : String) (onlyLocal : Bool) :
    Moving library rel (selectIds id criteria onlyLocal) := by
  refine moving_bind (moving_selectTokens false id _) ?_
  intro found
  exact moving_bind moving_nodes fun _ => moving_pure _

theorem moving_arranged (ids : List ResourceId) (scope : Scope) (sorted : Bool) :
    Moving library rel (arranged ids scope sorted) := by
  unfold arranged
  split
  · exact moving_sort _ _
  · exact moving_bind moving_nodes fun _ => moving_pure _

theorem moving_select (id : ResourceId) (criteria : String) (onlyLocal sorted : Bool) :
    Moving library rel (select id criteria onlyLocal sorted) :=
  moving_bind (moving_selectIds id criteria onlyLocal) fun _ => moving_arranged _ _ _

theorem moving_selectBasedir (base : FilePath) (includeSelf : Bool) :
    Moving library rel (selectBasedir base includeSelf) := by
  refine moving_bind (moving_settle base) fun place => ?_
  refine moving_bind (moving_selectIds _ everything true) ?_
  intro found
  exact moving_bind moving_nodes fun _ => moving_sort _ _

theorem moving_providers (id : ResourceId) (scope : Scope) (expand sorted : Bool) :
    Moving library rel (providers id scope expand sorted) :=
  moving_bind (moving_tierProviders id scope expand none) fun _ => moving_arranged _ _ _

theorem moving_allProviders (id : ResourceId) (scope : Scope) (expand sorted : Bool) :
    Moving library rel (allProviders id scope expand sorted) :=
  moving_bind (moving_aggregatedProviders id scope expand true) fun _ => moving_arranged _ _ _

theorem moving_classpath (id : ResourceId) (scope : Scope) :
    Moving library rel (classpath id scope) := by
  refine moving_bind (moving_aggregatedProviders id scope true false) ?_
  intro found
  refine moving_bind (moving_sort found scope) ?_
  intro sorted
  exact moving_bind moving_nodes fun _ => moving_pure _

theorem moving_categoryClasspath (id : ResourceId) (category : Category) :
    Moving library rel (categoryClasspath id category) := by
  refine moving_bind (moving_mapM fun _ _ => moving_tierProviders _ _ _ _) ?_
  intro lower
  refine moving_bind (moving_tierProviders id .runtime true (some category)) ?_
  intro found
  exact moving_bind moving_nodes fun _ => moving_sort _ _

theorem moving_provided : Moving library rel provided := by
  refine moving_bind (moving_selectIds _ everything false) ?_
  intro candidates
  refine moving_mapM fun candidate _ => ?_
  exact moving_bind (moving_aggregated candidate .test true) fun _ => moving_pure _

theorem moving_consumers (id : ResourceId) (expand sorted : Bool) :
    Moving library rel (consumers id expand sorted) := by
  refine moving_bind moving_provided ?_
  intro table
  simp only
  split
  · refine moving_bind moving_depth ?_
    intro depth
    refine moving_bind ?_ fun found => moving_arranged _ _ _
    exact moving_foldlM (moving_enter (fun _ => moving_pure _) depth) _ _
  · exact moving_bind (moving_pure _) fun found => moving_arranged _ _ _

theorem moving_exportDependencies (boundary id : ResourceId) :
    Moving library rel (exportDependencies boundary id) := by
  refine moving_bind (moving_mapM fun category _ => ?_) fun found => moving_pure _
  refine moving_bind (moving_tierProviders id .runtime true (some category)) ?_
  intro providers
  exact moving_bind moving_nodes fun _ => moving_pure _

theorem moving_exportNode (boundary : ResourceId) (depth : Nat) (id : ResourceId) :
    Moving library rel (exportNode boundary depth id) := by
  induction depth generalizing id with
  | zero => exact moving_bind (moving_node id) fun _ => moving_pure _
  | succ depth ih =>
    refine moving_bind (moving_node id) ?_
    intro node
    split
    · exact moving_bind (moving_mapM fun child _ => ih child) fun _ => moving_pure _
    · exact moving_bind (moving_exportDependencies boundary id) fun _ => moving_pure _

end

section
variable {library : Library} {rel : Bool → Registry → Registry → Prop}
  [ProviderCourse library rel] [Faulting rel]

theorem moving_anySort (candidates : List ResourceId) (scope : Scope) (strict : Bool) :
    Moving library rel (sort candidates scope strict) := by
  refine moving_bind moving_depth ?_
  intro depth
  refine moving_bind (moving_postOrder (moving_sortEdges candidates scope) depth candidates)
    fun walk => ?_
  split
  · exact moving_bind moving_nodes fun _ => moving_throw _
  · exact moving_pure _

theorem moving_locate (id : ResourceId) (base : FilePath) : Moving library rel (locate id base) := by
  refine moving_bind (moving_settle base) fun place => ?_
  refine moving_bind (moving_selectIds id everything true) ?_
  intro found
  refine moving_bind moving_nodes ?_
  intro nodes
  split
  · exact moving_pure _
  · exact moving_throw _

theorem moving_exportModule (id : ResourceId) : Moving library rel (exportModule id) := by
  refine moving_bind moving_nodes ?_
  intro nodes
  simp only
  split
  · exact moving_throw _
  · refine moving_bind moving_depth ?_
    intro depth
    refine moving_bind (moving_exportNode id depth id) ?_
    intro exported
    split
    · exact moving_pure _
    · exact moving_ofExcept _

end

end ResourceLibrary.Query
