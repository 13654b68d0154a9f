import Mathlib.Data.List.Nodup
import ResourceLibrary.Proofs.Library.Includes
import ResourceLibrary.Proofs.Library.OrderReturning

/-!
Consumers return. Every step of the walk to them asks all resources for their providers again; from
the second time on nothing is registered, as every coordinate that is cited has been met by then, and
so the answers stay what they were.
-/

namespace ResourceLibrary
open Registry (Grows Reached)
open Call (unfold body)

namespace Query
variable {library : Library} {again : ResourceId → Query (List ResourceId)}
  {deeper : Bool → (call : Call) → Query call.Result} {levels : Nat}

section
variable {start grown : Registry} (tree : library.arena.IsTree) (reached : Reached library start)

include tree reached in
theorem leaf_of_aggregated {id : ResourceId} {header : Header}
    (stated : (library.node start id).header = some header) {tier : Scope} {entry : Include}
    (member : entry ∈ header.includes tier none) (mode : entry.mode = .uri) {scope : Scope}
    {withBuild : Bool} (listed : tier ∈ scope.tiers withBuild) {ids : List ResourceId}
    (given : (aggregated id scope withBuild).answer library start = (.ok ids, grown)) :
    ∃ leaf ∈ ids, grown.urns.lookup ((library.node start id).properties.resolve entry.value) =
      some leaf := by
  obtain ⟨lists, last, gathered, done⟩ := answer_bind_eq_ok_iff.mp given
  cases done
  have each := forall₂_of_answer_mapM (growing_localProviders id · none) gathered
  obtain ⟨others, among, before, after, since, answered, onward⟩ :=
    exists_mem_of_forall₂ each listed
  obtain ⟨direct, middle, asked, rest⟩ := localProviders_cases answered
  have same := since.node (Library.known_of_header stated)
  rw [← same] at stated ⊢
  obtain ⟨leaf, here, leads⟩ :=
    exists_mem_of_declared tree (reached.grows since) stated asked .refl member
  have found := (Include.leads_uri_iff mode).mp leads
  have further : leaf ∈ others ∧ Grows library middle after := by
    split at rest
    · obtain ⟨modules, needed, rfl⟩ := rest
      exact ⟨mem_foldl_addNew.mpr (.inl here), (growing_neededModules _).grows needed⟩
    · obtain ⟨rfl, rfl⟩ := rest
      exact ⟨here, .refl⟩
  refine ⟨leaf, mem_distinct.mpr (List.mem_flatten.mpr ⟨others, among, further.1⟩), ?_⟩
  exact Grows.lookup (further.2.trans onward) found

/-- By the time that the providers of all resources are known, all coordinates have been met. -/
theorem Listing.met {table : List (ResourceId × List ResourceId)}
    (listing : Listing library start table) (tree : library.arena.IsTree)
    (reached : Reached library start) {urn : String} (cites : library.Cites urn) :
    start.urns.lookup urn ≠ none := by
  obtain ⟨id, frozen, header, dependency, entry, stated, depends, member, mode, rfl⟩ := cites
  rw [Library.node_eq_of_lt frozen .empty start] at stated ⊢
  have inner : id ≠ Library.root := by
    rintro rfl
    rw [Library.undeclared_root tree] at stated
    cases stated
  obtain ⟨providers, listed⟩ := listing.covers id (Nat.pos_of_ne_zero inner) frozen
  obtain ⟨last, given⟩ := listing.settled _ listed start .refl
  have included : entry ∈ header.includes dependency.scope none :=
    Header.mem_includes_iff.mpr ⟨⟨dependency, depends, rfl, member⟩, rfl⟩
  have tier : dependency.scope ∈ Scope.tiers .test true := by
    cases dependency.scope <;> decide
  obtain ⟨leaf, provided, found⟩ := leaf_of_aggregated tree reached stated included mode tier given
  rw [reached.lookup_of_lt ((growing_aggregated _ _ _).grows given) found
    (listing.resources _ listed leaf provided).known]
  simp

include reached in
theorem eq_of_sameEntry {world : World library} (since : (World.diagonal reached).Later world)
    (kept : Grows library world.left world.right) {first second : ResourceId × List ResourceId}
    (same : SameEntry (World.diagonal reached) world first second) : first = second := by
  obtain ⟨key, values⟩ := same
  refine Prod.ext (World.eq_of_diagonal_same reached key) ?_
  rw [← List.forall₂_eq_eq_eq]
  exact values.imp fun _ _ near => (near.same since).eq_of_grows kept

include tree reached

theorem provided_again {table : List (ResourceId × List ResourceId)}
    (given : provided.answer library start = (.ok table, grown)) :
    provided.answer library grown = (.ok table, grown) := by
  have grows := growing_provided.grows given
  have later := reached.grows grows
  let side : World library := ⟨grown, start, later, reached⟩
  have since : (World.diagonal reached).Later side := ⟨grows, .refl⟩
  have moving : Moving library (fun _ => Citing library) provided := moving_provided
  have gathers := moving grown later
  obtain ⟨last, further, ⟨found, others, again, first, same⟩ | ⟨failure, _, first⟩⟩ :=
    agree_provided tree since
  · have equal := given.symm.trans first
    rw [Prod.mk.injEq, Except.ok.injEq] at equal
    rw [again] at gathers
    have settled : last.left = grown :=
      gathers.eq fun urn => (listing_of_provided tree reached given).met tree later
    have kept : Grows library last.left last.right := by
      rw [settled, equal.2]
      exact .refl
    have alike : found = others := by
      rw [← List.forall₂_eq_eq_eq]
      exact same.imp fun _ _ both => eq_of_sameEntry reached (since.trans further) kept both
    rw [again, alike, ← equal.1, settled]
  · cases given.symm.trans first

end

/-- Asking candidates one by one whether they have a provider is looking it up in a table of all
that they are provided with. -/
theorem filterM_contains (ask : ResourceId → Query (List ResourceId)) (candidates : List ResourceId)
    (id : ResourceId) :
    (candidates.filterM fun candidate => do return (← ask candidate).contains id) = do
      return directConsumers
        (← candidates.mapM fun candidate => do return (candidate, ← ask candidate)) id := by
  have aux : ∀ kept, candidates.filterAuxM
      (fun candidate => do return (← ask candidate).contains id) kept = do
        let table ← candidates.mapM fun candidate => do return (candidate, ← ask candidate)
        return (directConsumers table id).reverse ++ kept := by
    induction candidates with
    | nil =>
      intro kept
      rw [List.filterAuxM, List.mapM_nil, pure_bind]
      rfl
    | cons candidate rest ih =>
      intro kept
      rw [List.filterAuxM, List.mapM_cons]
      simp only [bind_assoc, pure_bind, ih]
      refine bind_congr fun providers => bind_congr fun table => ?_
      by_cases member : id ∈ providers <;> simp [directConsumers, member]
  rw [List.filterM, aux]
  simp

section
variable {start : Registry} (tree : library.arena.IsTree) (reached : Reached library start)
  {before : Registry} (since : Grows library start before) {depth : Nat}
  (deep : start.next library < depth)
include tree reached since deep

theorem like_directConsumers {id : ResourceId} (high : 3 * depth + 16 ≤ levels) :
    Like library before (unfold again deeper levels false (.directConsumers id))
      (do return directConsumers (← provided) id) := by
  refine like_of_body (by omega) rfl ?_
  rw [body, provided, bind_assoc]
  refine like_bind (like_everything tree reached since deep (by omega))
    fun candidates grown given => ?_
  have onward := since.trans ((growing_selectIds _ _ _).grows given)
  rw [filterM_contains fun candidate => _]
  refine like_bind (like_mapM growing_entry fun candidate member after later => ?_)
    fun _ _ _ => .refl _
  have inside := ((mem_of_everything tree (reached.grows since) given).2 candidate).mp member
  have known : candidate < start.next library := Nat.lt_add_right _ inside.2
  have near := (steady_aggregated tree reached .test true).lasts (onward.trans later)
    (itself_of_lt reached known)
  exact like_bind (like_aggregated_of_near tree reached (onward.trans later) deep near (by omega))
    fun _ _ _ => .refl _

end

section
variable {middle : Registry} {table : List (ResourceId × List ResourceId)}
  (listing : Listing library middle table)
include listing

theorem Listing.bounded_frozen :
    Walk.Bounded (directConsumers table) (· < library.frozen.size)
      (List.range library.frozen.size) := by
  refine ⟨fun _ _ consumer edge => ?_, fun id frozen _ _ => List.mem_range.mpr frozen⟩
  obtain ⟨providers, member, _⟩ := mem_directConsumers.mp edge
  exact listing.inside _ member

theorem Listing.lt_frozen_of_reaches {id other : ResourceId} (here : id < library.frozen.size)
    (reaches : Walk.Reaches (directConsumers table) id other) : other < library.frozen.size := by
  induction reaches with
  | refl => exact here
  | tail _ edge ih => exact listing.bounded_frozen.stays _ ih _ edge

omit listing in
structure Emitted (library : Library) (first order : List ResourceId) : Prop where
  kept : first <+: order
  single : order.Nodup
  frozen : order ⊆ List.range library.frozen.size

omit listing in
theorem Emitted.emit {first order : List ResourceId} (emitted : Emitted library first order)
    {id : ResourceId} (fresh : id ∉ order) (here : id < library.frozen.size) :
    Emitted library (order ++ [id]) (order ++ [id]) := by
  refine ⟨List.prefix_rfl, ?_, ?_⟩
  · rw [← List.concat_eq_append]
    exact List.Nodup.concat fresh emitted.single
  · refine List.append_subset.mpr ⟨emitted.frozen, ?_⟩
    simpa using here

theorem Listing.emitted_enter {first order : List ResourceId} (emitted : Emitted library first order)
    {bound : Nat} (space : library.frozen.size < bound + first.length) {id : ResourceId}
    (here : id < library.frozen.size) :
    Emitted library first
      (Walk.enter (m := Id) (fun node => pure (directConsumers table node)) bound order id).run := by
  have bounded := listing.bounded_frozen
  have room := emitted.kept.length_le
  have entered := Walk.entered_enter bounded bound here emitted.single emitted.frozen
    (List.Subset.refl _) (by
      rw [List.length_range]
      omega)
  refine ⟨emitted.kept.trans entered.kept, entered.single emitted.single, fun node member => ?_⟩
  rcases entered.reached node member with old | ⟨begun, same, reaches⟩
  · exact emitted.frozen old
  · rw [List.mem_singleton.mp same] at reaches
    exact List.mem_range.mpr (listing.lt_frozen_of_reaches here reaches)

theorem like_enter (height : Nat) (asks : ∀ levels node, height ≤ levels →
      Like library middle (unfold again deeper levels false (.directConsumers node))
        (pure (directConsumers table node)))
    (room : Nat) {bound levels : Nat} (enough : room ≤ bound) {first order : List ResourceId}
    (emitted : Emitted library first order) (space : library.frozen.size < room + first.length)
    (high : height + room ≤ levels) {id : ResourceId} (here : id < library.frozen.size) :
    Like library middle (unfold again deeper levels false (.enter order id))
      (pure (Walk.enter (m := Id) (fun node => pure (directConsumers table node)) bound order
        id).run) := by
  induction room generalizing bound levels first order id with
  | zero =>
    have crowded := emitted.single.length_le_of_subset emitted.frozen
    have length := emitted.kept.length_le
    rw [List.length_range] at crowded
    omega
  | succ room ih =>
    obtain ⟨lower, rfl⟩ : ∃ lower, bound = lower + 1 := ⟨bound - 1, by omega⟩
    refine like_of_body (by omega) rfl ?_
    rw [body, Walk.enter_succ]
    split
    · exact .refl _
    · next fresh =>
      have direct : ∀ other ∈ directConsumers table id, other < library.frozen.size :=
        listing.bounded_frozen.stays id here
      have length := emitted.kept.length_le
      refine like_bind_of_pure (asks _ id (by omega)) (like_foldl ?_ (emitted.emit fresh here))
      intro other member value since
      have further : library.frozen.size < room + (order ++ [id]).length := by
        rw [List.length_append, List.length_singleton]
        omega
      exact ⟨listing.emitted_enter since (by omega) (direct other member),
        ih (by omega) since further (by omega) (direct other member)⟩

theorem Listing.like_entered (height : Nat) (asks : ∀ levels node, height ≤ levels →
      Like library middle (unfold again deeper levels false (.directConsumers node))
        (pure (directConsumers table node)))
    {id : ResourceId} (high : height + (library.frozen.size + 1) ≤ levels) :
    Like library middle
      ((directConsumers table id).foldlM (fun order other =>
        unfold again deeper levels false (.enter order other)) [])
      (pure (Walk.entered (directConsumers table) (middle.next library + 1)
        (directConsumers table id))) := by
  rw [Walk.entered, Walk.preOrder, List.idRun_foldlM]
  have empty : Emitted library [] [] := ⟨List.prefix_rfl, .nil, List.nil_subset _⟩
  refine like_foldl (fun other edge order emitted => ?_) empty
  have inside : other < library.frozen.size := by
    obtain ⟨_, member, _⟩ := mem_directConsumers.mp edge
    exact listing.inside _ member
  have room : library.frozen.size + 1 ≤ middle.next library + 1 :=
    Nat.succ_le_succ (Nat.le_add_right _ _)
  exact ⟨listing.emitted_enter emitted room inside,
    like_enter listing height asks (library.frozen.size + 1) room emitted (by simp) high inside⟩

end

section
variable {start : Registry} (tree : library.arena.IsTree) (reached : Reached library start)
  {before : Registry} (since : Grows library start before) {depth : Nat}
  (deep : start.next library < depth)
include tree reached since deep

theorem like_directConsumers_again {table : List (ResourceId × List ResourceId)} {middle : Registry}
    (given : provided.answer library before = (.ok table, middle)) {id : ResourceId}
    (high : 3 * depth + 16 ≤ levels) :
    Like library middle (unfold again deeper levels false (.directConsumers id))
      (pure (directConsumers table id)) := by
  have onward := since.trans (growing_provided.grows given)
  refine Eq.trans (like_directConsumers tree reached onward deep high) ?_
  exact like_bind_of_pure (provided_again tree (reached.grows since) given) (.refl _)

theorem like_arranged {ids : List ResourceId} (known : ∀ id ∈ ids, id < start.next library)
    {sorted : Bool} (high : 3 * depth + 15 ≤ levels) :
    Like library before
      (if sorted then unfold again deeper levels false (.sort ids .test false)
        else arranged ids .test false)
      (arranged ids .test sorted) := by
  cases sorted with
  | false => exact .refl _
  | true => exact like_sort tree reached since deep known high

theorem like_consumers {id : ResourceId} {expand sorted : Bool} (high : 4 * depth + 17 ≤ levels) :
    Like library before (unfold again deeper levels false (.consumers id expand sorted))
      (consumers id expand sorted) := by
  refine like_of_body (by omega) rfl ?_
  rw [body]
  refine Eq.trans (like_bind (like_directConsumers tree reached since deep (by omega))
    fun _ _ _ => .refl _) ?_
  rw [bind_assoc, consumers]
  refine like_bind (.refl _) fun table middle given => ?_
  rw [pure_bind]
  have listing := listing_of_provided tree (reached.grows since) given
  have onward := since.trans (growing_provided.grows given)
  have known : ∀ other ∈ tabled table (middle.next library + 1) expand id,
      other < start.next library := by
    intro other member
    have inside := (listing.mem_tabled_iff .refl tree (reached.grows onward) expand).mp member
    exact Nat.lt_add_right _ inside.1
  cases expand with
  | false => exact like_arranged tree reached onward deep known (by omega)
  | true =>
    have frozen : library.frozen.size < depth := Nat.lt_of_le_of_lt (Nat.le_add_right _ _) deep
    have asks : ∀ levels node, 3 * depth + 16 ≤ levels →
        Like library middle (unfold again deeper levels false (.directConsumers node))
          (pure (directConsumers table node)) := fun levels node room =>
      like_directConsumers_again tree reached since deep given room
    simp only [if_true, Walk.preOrder_pure]
    refine like_bind_of_pure (listing.like_entered (3 * depth + 16) asks ?_) ?_
    · omega
    · exact like_arranged tree reached onward deep known (by omega)

end
end Query
end ResourceLibrary
