import ResourceLibrary.Proofs.Library.Expansion
import ResourceLibrary.Proofs.Library.Forest

/-!
What a query always finds once it is answered. Main statements: rules for this, one for each query
on the way to a sort; and the needs of a plain resource are its expanded providers.
-/

namespace ResourceLibrary
open Registry (Grows Reached)

theorem Scope.build_not_mem_tiers (scope : Scope) : .build ∉ scope.tiers false := by
  cases scope <;> decide

namespace Query
variable {library : Library} {start : Registry} {id found : ResourceId}

/-- From this time on the resource is in every answer to the query. -/
def Always (library : Library) (start : Registry) (query : Query (List ResourceId))
    (found : ResourceId) : Prop :=
  ∀ registry ids grown, Grows library start registry →
    query.answer library registry = (.ok ids, grown) → found ∈ ids

theorem Always.later {query : Query (List ResourceId)} (always : Always library start query found)
    {registry : Registry} (grows : Grows library start registry) :
    Always library registry query found :=
  fun later ids grown since given => always later ids grown (grows.trans since) given

theorem answer_filterM {α : Type} {test : α → Query Bool} {p : α → Bool} {registry : Registry}
    (same : ∀ item, (test item).answer library registry = (.ok (p item), registry))
    (items : List α) :
    (items.filterM test).answer library registry = (.ok (items.filter p), registry) := by
  have aux : ∀ kept, (items.filterAuxM test kept).answer library registry =
      (.ok ((items.filter p).reverse ++ kept), registry) := by
    induction items with
    | nil => exact fun kept => rfl
    | cons item rest ih =>
      intro kept
      rw [List.filterAuxM, answer_bind, same]
      simp only
      rw [ih]
      cases chosen : p item <;> simp [chosen]
  rw [List.filterM, answer_bind, aux]
  simp [answer_pure]

theorem always_gather {providers : Scope → Query (List ResourceId)}
    (growing : ∀ tier, Growing (providers tier)) {tiers : List Scope} {tier : Scope}
    (member : tier ∈ tiers) (always : Always library start (providers tier) found) :
    Always library start (gather tiers providers) found := by
  intro registry ids grown since given
  obtain ⟨lists, last, gathered, done⟩ := answer_bind_eq_ok_iff.mp given
  cases done
  have each := forall₂_of_answer_mapM growing gathered
  obtain ⟨others, inside, before, after, begun, asked, _⟩ := exists_mem_of_forall₂ each member
  have present := always before others after (since.trans begun) asked
  exact mem_distinct.mpr (List.mem_flatten.mpr ⟨others, inside, present⟩)

theorem localProviders_cases {tier : Scope} {category : Option Category} {registry grown : Registry}
    {ids : List ResourceId}
    (given : (localProviders id tier category).answer library registry = (.ok ids, grown)) :
    ∃ direct middle, (declared id tier category).answer library registry = (.ok direct, middle) ∧
      if (tier = .build && (library.node middle id).isModule &&
          (library.node middle id).header.isSome && isImplicit category) = true then
        ∃ modules, (neededModules (library.node middle id)).answer library middle =
          (.ok modules, grown) ∧ ids = modules.foldl addNew direct
      else ids = direct ∧ grown = middle := by
  obtain ⟨direct, middle, asked, further⟩ := answer_bind_eq_ok_iff.mp given
  refine ⟨direct, middle, asked, ?_⟩
  rw [answer_bind, answer_node] at further
  simp only at further
  split at further
  · next implicit =>
    obtain ⟨modules, last, needed, done⟩ := answer_bind_eq_ok_iff.mp further
    cases done
    rw [if_pos implicit]
    exact ⟨modules, needed, rfl⟩
  · next plain =>
    cases further
    rw [if_neg plain]
    exact ⟨rfl, rfl⟩

theorem answer_declared_of_undeclared {registry : Registry}
    (undeclared : (library.node registry id).header = none) (tier : Scope)
    (category : Option Category) :
    (declared id tier category).answer library registry = (.ok [], registry) := by
  rw [declared, answer_bind, answer_node]
  simp only [undeclared]
  rfl

theorem answer_declared_of_bare {registry : Registry} (bare : (library.node registry id).Bare)
    (plain : (library.node registry id).isModule = false) (tier : Scope)
    (category : Option Category) :
    (declared id tier category).answer library registry = (.ok [], registry) := by
  rw [declared, answer_bind, answer_node]
  simp only
  split
  · rfl
  · next header stated =>
    simp only [bare.includes stated, Node.children_of_plain plain, ite_self]
    rfl

theorem always_localProviders {tier : Scope} {category : Option Category}
    (always : Always library start (declared id tier category) found) :
    Always library start (localProviders id tier category) found := by
  intro registry ids grown since given
  obtain ⟨direct, middle, asked, rest⟩ := localProviders_cases given
  have present := always registry direct middle since asked
  split at rest
  · obtain ⟨modules, _, rfl⟩ := rest
    exact mem_foldl_addNew.mpr (.inl present)
  · rw [rest.1]
    exact present

section
variable (known : id < start.next library)
include known

theorem always_declared_child
    (header : (library.node start id).header.isSome = true)
    (child : found ∈ (library.node start id).children) :
    Always library start (declared id .runtime none) found := by
  intro registry ids grown since given
  rw [declared, answer_bind, answer_node] at given
  simp only [since.node known] at given
  obtain ⟨declaration, present⟩ := Option.isSome_iff_exists.mp header
  rw [present] at given
  obtain ⟨named, middle, asked, done⟩ := answer_bind_eq_ok_iff.mp given
  cases done
  rw [mem_distinct]
  exact List.mem_append_right _ child

theorem always_localProviders_build (module : (library.node start id).isModule = true)
    (header : (library.node start id).header.isSome = true)
    (always : Always library start (neededModules (library.node start id)) found) :
    Always library start (localProviders id .build none) found := by
  intro registry ids grown since given
  obtain ⟨direct, middle, asked, rest⟩ := localProviders_cases given
  have later := since.trans ((growing_declared id .build none).grows asked)
  rw [Grows.node later known, module, header] at rest
  simp only [isImplicit, Option.all_none, decide_true, Bool.and_true, if_true] at rest
  obtain ⟨modules, needed, rfl⟩ := rest
  exact mem_foldl_addNew.mpr (.inr (always _ _ _ later needed))

end

theorem always_neededModules {module : Node} {child needed : ResourceId}
    (listed : child ∈ module.children) (known : child < start.next library)
    (plain : (library.node start child).isModule = false)
    (needs : Always library start (needs child) needed)
    (outside : Always library start (outerModules module needed) found) :
    Always library start (neededModules module) found := by
  intro registry ids grown since given
  obtain ⟨children, middle, asked, further⟩ := answer_bind_eq_ok_iff.mp given
  rw [answer_filterM (p := fun child => !(library.node registry child).isModule)
    (fun _ => rfl)] at asked
  cases asked
  obtain ⟨lists, last, gathered, done⟩ := answer_bind_eq_ok_iff.mp further
  cases done
  have member : child ∈ module.children.filter fun child =>
      !(library.node registry child).isModule := by
    rw [List.mem_filter, since.node known, plain]
    exact ⟨listed, rfl⟩
  have each := forall₂_of_answer_mapM (growing_outerNeeds module) gathered
  obtain ⟨others, inside, before, after, begun, reply, _⟩ := exists_mem_of_forall₂ each member
  obtain ⟨all, between, wanted, rest⟩ := answer_bind_eq_ok_iff.mp reply
  obtain ⟨around, behind, mapped, same⟩ := answer_bind_eq_ok_iff.mp rest
  cases same
  have present := needs before all between (since.trans begun) wanted
  have onward := since.trans (begun.trans ((growing_needs child).grows wanted))
  have every := forall₂_of_answer_mapM (growing_outerModules module) mapped
  obtain ⟨outer, among, first, second, further, asked, _⟩ := exists_mem_of_forall₂ every present
  have last := outside first outer second (onward.trans further) asked
  exact List.mem_flatten.mpr ⟨_, inside, List.mem_flatten.mpr ⟨outer, among, last⟩⟩

section
variable (tree : library.arena.IsTree) (reached : Reached library start)
include tree reached

theorem enclosing?_of_parent {outer : ResourceId}
    (up : (library.node start id).parent = some outer)
    (inner : (library.node start outer).isRoot = false) {registry : Registry}
    (since : Grows library start registry) :
    enclosing? (library.node registry) (library.node start id) =
      some (library.node start outer) := by
  have above := (joined_of_parent tree reached up).1
  rw [enclosing?, up, Option.map_some, since.node above]
  simp [inner]

theorem always_outerModules {module : Node} {needed outer : ResourceId}
    (named : (library.node start needed).isAnonymous = false)
    (up : (library.node start needed).parent = some outer)
    (inner : (library.node start outer).isRoot = false)
    (apart : (library.node start outer).path.startsWith module.path = false)
    (outside : module.path.startsWith (library.node start outer).path = false) :
    Always library start (outerModules module needed) outer := by
  intro registry ids grown since given
  have known := Library.known_of_parent up
  have own := reached.own tree (joined_of_parent tree reached up).1
  rw [outerModules, answer_bind, answer_nodes] at given
  simp only [enclosing?_of_parent tree reached up inner since, since.node known, named, apart,
    outside, own, Bool.or_self, Bool.false_eq_true, if_false] at given
  cases given
  exact List.mem_singleton.mpr rfl

end

section
variable {origin : ResourcePath} {scope : Scope} {current : ResourceId}
  (known : current < start.next library)
  (named : (library.node start current).isAnonymous = false)
  (outside : current ≠ id → origin.startsWith (library.node start current).path = false)
  (module : (library.node start current).isModule = true)
include known named outside module

theorem moduleStep_cases {registry grown : Registry} {ids : List ResourceId}
    (since : Grows library start registry)
    (given : (moduleStep id origin scope current).answer library registry = (.ok ids, grown)) :
    ∃ providers, (aggregated current scope true).answer library registry = (.ok providers, grown) ∧
      ids = (childModules (library.node grown) (library.node start current)).foldl addNew
        providers := by
  rw [moduleStep, answer_bind, answer_nodes] at given
  have goesOn : ((library.node start current).isAnonymous ||
      (decide (current ≠ id) && origin.startsWith (library.node start current).path)) = false := by
    rw [named, Bool.false_or, Bool.and_eq_false_iff, decide_eq_false_iff_not]
    by_cases same : current = id
    · exact .inl (not_not.mpr same)
    · exact .inr (outside same)
  simp only [since.node known, goesOn, Bool.false_eq_true, if_false] at given
  obtain ⟨providers, middle, asked, further⟩ := answer_bind_eq_ok_iff.mp given
  rw [answer_bind, answer_nodes] at further
  simp only [module, if_true] at further
  cases further
  exact ⟨providers, asked, rfl⟩

theorem always_moduleStep_provider (always : Always library start (aggregated current scope true)
    found) : Always library start (moduleStep id origin scope current) found := by
  intro registry ids grown since given
  obtain ⟨providers, asked, rfl⟩ := moduleStep_cases known named outside module since given
  exact mem_foldl_addNew.mpr (.inl (always registry providers grown since asked))

theorem always_moduleStep_child (child : found ∈ (library.node start current).children)
    (inside : found < start.next library) (isModule : (library.node start found).isModule = true) :
    Always library start (moduleStep id origin scope current) found := by
  intro registry ids grown since given
  obtain ⟨providers, asked, rfl⟩ := moduleStep_cases known named outside module since given
  have later := since.trans ((growing_aggregated current scope true).grows asked)
  refine mem_foldl_addNew.mpr (.inr (List.mem_filter.mpr ⟨child, ?_⟩))
  rw [Grows.node later inside]
  exact isModule

end

section
variable (tree : library.arena.IsTree) (reached : Reached library start)
include tree reached

/-- What a walk over modules comes to is in the list if it is a named module elsewhere. -/
theorem always_providerModules (known : id < start.next library) {scope : Scope}
    (inside : found < start.next library)
    (way : Relation.ReflTransGen (fun node next => Always library start
      (moduleStep id (library.node start id).path scope node) next) id found)
    (module : (library.node start found).isModule = true)
    (named : (library.node start found).isAnonymous = false)
    (outside : (library.node start id).path.startsWith (library.node start found).path = false) :
    Always library start (providerModules id scope) found := by
  intro registry ids grown since given
  rw [providerModules, answer_bind, answer_node] at given
  simp only [since.node known] at given
  obtain ⟨order, last, walked, done⟩ := answer_bind_eq_ok_iff.mp given
  have here := Nat.lt_of_lt_of_le known since.next_le
  have after := reached.grows since
  have steady := steady_moduleStep tree after here (library.node start id).path scope
  have later := since.trans ((growing_closure (growing_moduleStep id _ scope) _).grows walked)
  have begun : ∀ node ∈ [id], Itself library (World.diagonal after).Met registry node := by
    intro node member
    have same := World.diagonal_same after here
    rw [List.mem_singleton.mp member]
    exact ⟨after, same, .inl same⟩
  obtain ⟨_, asked, closed⟩ := closure_of_answer steady begun walked
  have member : found ∈ order := by
    clear inside module named outside
    induction way with
    | refl => exact (closed last .refl id).mpr ⟨id, by simp, .refl⟩
    | tail _ step ih =>
      obtain ⟨first, start, way⟩ := (closed last .refl _).mp ih
      obtain ⟨_, again⟩ := (asked _ ih).settled last .refl
      refine (closed last .refl _).mpr ⟨first, start, way.tail ?_⟩
      exact ⟨_, _, again, step last _ _ later again⟩
  rw [answer_bind, answer_nodes] at done
  cases done
  refine List.mem_filter.mpr ⟨member, ?_⟩
  simp [Grows.node later inside, module, named, outside]

end

section
variable {candidates : List ResourceId} {scope : Scope}

variable (listed : found ∈ candidates)
include listed

theorem always_sortEdges_provider (always : Always library start (aggregated id scope true) found) :
    Always library start (sortEdges candidates scope id) found := by
  intro registry ids grown since given
  obtain ⟨providers, middle, asked, rest⟩ := sortEdges_cases given
  have direct : found ∈ providers.filter candidates.contains := by
    simp [always registry providers middle since asked, listed]
  split at rest
  · obtain ⟨modules, _, rfl⟩ := rest
    exact mem_foldl_addNew.mpr (.inl direct)
  · rw [rest]
    exact direct

theorem always_sortEdges_module (known : id < start.next library)
    (module : (library.node start id).isModule = true)
    (always : Always library start (providerModules id scope) found) :
    Always library start (sortEdges candidates scope id) found := by
  intro registry ids grown since given
  obtain ⟨providers, middle, asked, rest⟩ := sortEdges_cases given
  have later := since.trans ((growing_aggregated id scope true).grows asked)
  rw [if_pos (by rw [Grows.node later known]; exact module)] at rest
  obtain ⟨modules, relied, rfl⟩ := rest
  refine mem_foldl_addNew.mpr (.inr ?_)
  simp [always middle modules grown later relied, listed]

omit listed in
theorem precedes_of_always (tree : library.arena.IsTree) (reached : Reached library start)
    (known : ∀ id ∈ candidates, id < start.next library) {order : List ResourceId}
    {grown : Registry}
    (given : (sort candidates scope true).answer library start = (.ok order, grown))
    (member : id ∈ candidates) (always : Always library start (sortEdges candidates scope id) found) :
    Walk.Precedes order found id := by
  have since := (growing_sort candidates scope true).grows given
  obtain ⟨ids, settled⟩ := sortEdges_of_sort tree reached known given member
  obtain ⟨last, again⟩ := settled grown .refl
  exact precedes_of_sort tree reached known given member
    ⟨ids, last, again, always grown ids last since again⟩

end

theorem localProviders_eq_declared {tier : Scope} (above : tier ≠ .build)
    (category : Option Category) : localProviders id tier category = declared id tier category := by
  funext library registry
  change (localProviders id tier category).answer library registry =
    (declared id tier category).answer library registry
  rw [localProviders, answer_bind]
  rcases (declared id tier category).answer library registry with ⟨_ | direct, grown⟩
  · rfl
  · simp only
    rw [answer_bind, answer_node]
    simp [above, answer_pure]

section
variable {registry : Registry}
  (plain : ∀ after, Grows library registry after → (library.node after id).isModule = false)
include plain

theorem like_localProviders_of_plain (tier : Scope) (category : Option Category) :
    Like library registry (localProviders id tier category) (declared id tier category) := by
  unfold Like
  rw [localProviders, answer_bind]
  rcases given : (declared id tier category).answer library registry with ⟨_ | direct, grown⟩
  · rfl
  · have here := plain grown ((growing_declared id tier category).grows given)
    simp only
    rw [answer_bind, answer_node]
    simp [here, answer_pure]

theorem answer_needs_of_plain :
    (needs id).answer library registry =
      (aggregatedProviders id .test true true).answer library registry := by
  have first : Like library registry (gather (Scope.tiers .test true) (declared id · none))
      (aggregated id .test true) := by
    refine like_gather (growing_localProviders id · none) fun tier _ after since => ?_
    exact (like_localProviders_of_plain (fun later grows => plain later (since.trans grows)) tier
      none).symm
  have step : (fun id => gather (Scope.tiers .test false) (declared id · none)) =
      (aggregated · .test (Scope.test = .build)) := by
    funext id
    have tiers : Scope.tiers .test false = [.runtime, .test] := rfl
    change _ = gather (Scope.tiers .test false) (localProviders id · none)
    rw [tiers, gather, gather]
    simp only [List.mapM_cons, List.mapM_nil,
      localProviders_eq_declared (by decide : Scope.runtime ≠ .build),
      localProviders_eq_declared (by decide : Scope.test ≠ .build)]
  rw [needs, aggregatedProviders]
  refine like_bind first fun found grown _ => ?_
  simp only [if_true, expanded, step]
  exact .refl _

end

end Query
end ResourceLibrary
