import ResourceLibrary.Proofs.Library.Always
import ResourceLibrary.Proofs.Library.Citations
import ResourceLibrary.Proofs.Library.Numbering

/-!
What includes lead to. Main statements: a resource declares what its includes lead to and, at
RUNTIME, its children; and from there on nothing depends on when it is asked for. An expansion goes
on from a resource over all categories.
-/

namespace ResourceLibrary
open Registry (Grows Reached)

/-- The resource that an include of a node leads to, once its coordinate was met. -/
def Include.Leads (library : Library) (registry : Registry) (node : Node) (entry : Include)
    (id : ResourceId) : Prop :=
  match entry.mode with
  | .uri => registry.urns.lookup (node.properties.resolve entry.value) = some id
  | _ => resolve (library.node registry) Library.root
      (entry.reference (library.node registry) node) = .ok id

namespace Include
variable {library : Library} {registry last : Registry} {node : Node} {entry : Include}
  {id other : ResourceId}

theorem leads_uri_iff (mode : entry.mode = .uri) :
    entry.Leads library registry node id ↔
      registry.urns.lookup (node.properties.resolve entry.value) = some id := by
  rw [Leads, mode]

theorem leads_iff_of_ne_uri (mode : entry.mode ≠ .uri) :
    entry.Leads library registry node id ↔ resolve (library.node registry) Library.root
      (entry.reference (library.node registry) node) = .ok id := by
  rw [Leads]
  split
  · next uri => exact absurd uri mode
  · exact Iff.rfl

theorem Leads.unique (one : entry.Leads library registry node id)
    (two : entry.Leads library registry node other) : id = other := by
  by_cases mode : entry.mode = .uri
  · rw [leads_uri_iff mode] at one two
    exact Option.some.inj (one.symm.trans two)
  · rw [leads_iff_of_ne_uri mode] at one two
    exact Except.ok.inj (one.symm.trans two)

section
variable (tree : library.arena.IsTree) (reached : Reached library registry) {place : ResourceId}
  (here : library.arena.node? place = some node) (grows : Grows library registry last)
include tree reached here grows

theorem leads_iff_of_grows (mode : entry.mode ≠ .uri) :
    entry.Leads library last node id ↔ entry.Leads library registry node id := by
  let world : World library := ⟨registry, last, reached, reached.grows grows⟩
  have same : entry.reference (library.node registry) node =
      entry.reference (library.node last) node := by
    unfold Include.reference
    rw [Query.enclosing?_eq tree world here]
  rw [leads_iff_of_ne_uri mode, leads_iff_of_ne_uri mode, ← same]
  rcases Query.resolve_frozen tree world (Library.size_pos_of_isTree tree)
    (entry.reference (library.node registry) node) with
      ⟨found, _, left, right⟩ | ⟨failure, left, right⟩
  · rw [left, right]
  · rw [left, right]

theorem Leads.later (leads : entry.Leads library registry node id) :
    entry.Leads library last node id := by
  by_cases mode : entry.mode = .uri
  · rw [leads_uri_iff mode] at leads ⊢
    exact grows.lookup leads
  · exact (leads_iff_of_grows tree reached here grows mode).mpr leads

theorem Leads.earlier (leads : entry.Leads library last node id)
    (known : id < registry.next library) : entry.Leads library registry node id := by
  by_cases mode : entry.mode = .uri
  · rw [leads_uri_iff mode] at leads ⊢
    exact reached.lookup_of_lt grows leads known
  · exact (leads_iff_of_grows tree reached here grows mode).mp leads

end

end Include

/-- A resource that another one brings in at a tier for a category, or for all of them: an include
leads to it or, at RUNTIME, it is a child that counts for the category. -/
def BringsIn (library : Library) (registry : Registry) (tier : Scope) (category : Option Category)
    (id first : ResourceId) : Prop :=
  ∃ header, (library.node registry id).header = some header ∧
    ((∃ entry ∈ header.includes tier category,
      entry.Leads library registry (library.node registry id) first) ∨
    tier = .runtime ∧ isImplicit category = true ∧ first ∈ (library.node registry id).children)

namespace BringsIn
variable {library : Library} (tree : library.arena.IsTree) {registry last : Registry}
  (reached : Reached library registry) (grows : Grows library registry last) {tier : Scope}
  {category : Option Category} {id first : ResourceId} (known : id < registry.next library)
include tree reached grows known

theorem later (brings : BringsIn library registry tier category id first) :
    BringsIn library last tier category id first := by
  obtain ⟨header, stated, brought⟩ := brings
  rw [BringsIn, grows.node known]
  refine ⟨header, stated, brought.imp_left ?_⟩
  rintro ⟨entry, listed, leads⟩
  have frozen := lt_frozen_of_includes reached stated listed
  exact ⟨entry, listed, leads.later tree reached (Library.node?_of_lt frozen registry) grows⟩

theorem earlier (inside : first < registry.next library)
    (brings : BringsIn library last tier category id first) :
    BringsIn library registry tier category id first := by
  rw [BringsIn, grows.node known] at brings
  obtain ⟨header, stated, brought⟩ := brings
  refine ⟨header, stated, brought.imp_left ?_⟩
  rintro ⟨entry, listed, leads⟩
  have frozen := lt_frozen_of_includes reached stated listed
  exact ⟨entry, listed,
    leads.earlier tree reached (Library.node?_of_lt frozen registry) grows inside⟩

end BringsIn

namespace Query
variable {library : Library} {before after : Registry} {id other : ResourceId}

section
variable {node : Node} {tier : Scope} {category : Option Category} {entry : Include}

theorem answer_included_of_ne_uri (mode : entry.mode ≠ .uri) :
    (included node tier category entry).answer library before =
      ((resolve (library.node before) Library.root
        (entry.reference (library.node before) node)).mapError fun _ =>
          .unknownReference node.text (entry.reference (library.node before) node) tier category,
        before) := by
  unfold included
  split
  · next uri => exact absurd uri mode
  · rw [answer_bind, answer_nodes]
    simp only [answer_mapFailure, answer_lookup]

theorem included_eq_ok_iff (mode : entry.mode ≠ .uri) :
    (included node tier category entry).answer library before = (.ok id, after) ↔
      resolve (library.node before) Library.root
        (entry.reference (library.node before) node) = .ok id ∧ after = before := by
  rw [answer_included_of_ne_uri mode]
  cases resolve (library.node before) Library.root
    (entry.reference (library.node before) node) with
  | error failure => exact iff_of_false nofun nofun
  | ok other => simp [Except.mapError, eq_comm]

theorem leads_of_included
    (given : (included node tier category entry).answer library before = (.ok id, after)) :
    entry.Leads library after node id := by
  by_cases mode : entry.mode = .uri
  · rw [Include.leads_uri_iff mode]
    simp only [included, mode, answer_mapFailure] at given
    rcases anonymous_cases (node.properties.resolve entry.value) entry.properties library before
      with ⟨found, last, asked, kept⟩ | ⟨failure, asked⟩
    · rw [asked] at given
      cases given
      exact kept
    · rw [asked] at given
      cases given
  · obtain ⟨done, rfl⟩ := (included_eq_ok_iff mode).mp given
    exact (Include.leads_iff_of_ne_uri mode).mpr done

end

section
variable (tree : library.arena.IsTree) (reached : Reached library before) {header : Header}
  (stated : (library.node before id).header = some header) {tier : Scope}
  {category : Option Category} {ids : List ResourceId}
  (given : (declared id tier category).answer library before = (.ok ids, after))
  {final : Registry} (rest : Grows library after final)
include tree reached stated given rest

theorem forall₂_leads_of_declared :
    ∃ named, List.Forall₂ (fun entry found => entry.Leads library final (library.node before id) found)
        (header.includes tier category) named ∧
      ids = distinct (named ++ if tier = .runtime && isImplicit category then
        (library.node before id).children else []) := by
  rw [declared, answer_bind, answer_node] at given
  simp only [stated] at given
  obtain ⟨named, middle, asked, done⟩ := answer_bind_eq_ok_iff.mp given
  cases done
  refine ⟨named, ?_, rfl⟩
  have growing := growing_included (library.node before id) tier category
  have each := forall₂_of_answer_mapM growing asked
  cases includes : header.includes tier category with
  | nil =>
    rw [includes] at each
    cases each
    exact .nil
  | cons first others =>
    have frozen := lt_frozen_of_includes reached stated (includes ▸ List.mem_cons_self)
    rw [← includes]
    refine each.imp ?_
    rintro entry found ⟨start, last, begun, answered, onward⟩
    have grows := (growing entry).grows answered
    have leads : entry.Leads library last (library.node before id) found :=
      leads_of_included answered
    exact leads.later tree (reached.grows (begun.trans grows))
      (Library.node?_of_lt frozen before) (onward.trans rest)

theorem exists_mem_of_declared {entry : Include} (member : entry ∈ header.includes tier category) :
    ∃ found ∈ ids, entry.Leads library final (library.node before id) found := by
  obtain ⟨named, each, rfl⟩ := forall₂_leads_of_declared tree reached stated given rest
  obtain ⟨found, inside, leads⟩ := exists_mem_of_forall₂ each member
  exact ⟨found, mem_distinct.mpr (List.mem_append_left _ inside), leads⟩

/-- What a resource declares does not depend on when it is asked for, once its includes were met. -/
theorem mem_declared_iff :
    other ∈ ids ↔
      (∃ entry ∈ header.includes tier category,
        entry.Leads library final (library.node before id) other) ∨
      tier = .runtime ∧ isImplicit category = true ∧
        other ∈ (library.node before id).children := by
  obtain ⟨named, each, rfl⟩ := forall₂_leads_of_declared tree reached stated given rest
  have listed : other ∈ named ↔ ∃ entry ∈ header.includes tier category,
      entry.Leads library final (library.node before id) other := by
    constructor
    · intro member
      obtain ⟨entry, inside, leads⟩ := exists_mem_of_forall₂ each.flip member
      exact ⟨entry, inside, leads⟩
    · rintro ⟨entry, inside, leads⟩
      obtain ⟨found, member, also⟩ := exists_mem_of_forall₂ each inside
      rwa [leads.unique also]
  rw [mem_distinct, List.mem_append, listed]
  refine or_congr_right ?_
  split
  · next implicit => simp_all
  · next explicit => simp_all

end

theorem mem_declared_iff_bringsIn (tree : library.arena.IsTree) (reached : Reached library before)
    (known : id < before.next library) {tier : Scope} {category : Option Category}
    {ids : List ResourceId}
    (given : (declared id tier category).answer library before = (.ok ids, after))
    {final : Registry} (rest : Grows library after final) :
    other ∈ ids ↔ BringsIn library final tier category id other := by
  have grows := ((growing_declared id tier category).grows given).trans rest
  rw [BringsIn, Grows.node grows known]
  cases stated : (library.node before id).header with
  | none =>
    rw [answer_declared_of_undeclared stated] at given
    cases given
    simp
  | some header =>
    rw [mem_declared_iff tree reached stated given rest]
    simp

theorem aggregated_runtime_eq_ok_iff {providers : List ResourceId} :
    (aggregated id .runtime false).answer library before = (.ok providers, after) ↔
      ∃ ids, (declared id .runtime none).answer library before = (.ok ids, after) ∧
        providers = distinct ids := by
  have tiers : Scope.tiers .runtime false = [.runtime] := rfl
  rw [aggregated, tiers, gather, List.mapM_cons, List.mapM_nil,
    localProviders_eq_declared (by decide)]
  simp only [answer_bind_eq_ok_iff, answer_pure, Prod.mk.injEq, Except.ok.injEq]
  constructor
  · rintro ⟨_, _, ⟨ids, _, asked, _, _, ⟨rfl, rfl⟩, rfl, rfl⟩, rfl, rfl⟩
    exact ⟨ids, asked, by simp⟩
  · rintro ⟨ids, asked, rfl⟩
    exact ⟨_, _, ⟨ids, _, asked, _, _, ⟨rfl, rfl⟩, rfl, rfl⟩, by simp, rfl⟩

end Query

theorem expansionStep_runtime_iff {library : Library} {registry : Registry} {id next : ResourceId} :
    ExpansionStep library registry .runtime id next ↔
      Query.Finds library registry (Query.declared id .runtime none) next := by
  constructor
  · rintro ⟨providers, grown, given, member⟩
    obtain ⟨ids, asked, rfl⟩ := Query.aggregated_runtime_eq_ok_iff.mp given
    exact ⟨ids, grown, asked, mem_distinct.mp member⟩
  · rintro ⟨ids, grown, asked, member⟩
    exact ⟨_, grown, Query.aggregated_runtime_eq_ok_iff.mpr ⟨ids, asked, rfl⟩,
      mem_distinct.mpr member⟩

namespace Expansion
open Query
variable {library : Library} (tree : library.arena.IsTree) {registry grown : Registry}
  (reached : Reached library registry) {start : Query (List ResourceId)} {id : ResourceId}
  {ids others : List ResourceId}
  (expansion : Expansion library registry .runtime start ids) (member : id ∈ ids)
include tree reached expansion member

theorem subset_of_declared {category : Option Category}
    (given : (declared id .runtime category).answer library registry = (.ok others, grown)) :
    others ⊆ ids := by
  obtain ⟨providers, settled⟩ := expansion.stepped id member
  have begun := (growing_declared id .runtime category).grows given
  obtain ⟨last, again⟩ := settled grown begun
  obtain ⟨all, asked, rfl⟩ := aggregated_runtime_eq_ok_iff.mp again
  have onward := (growing_declared id .runtime none).grows asked
  have same := begun.node (expansion.known id member)
  intro other found
  refine expansion.mem_of_step member (settled.finds_iff.mpr (mem_distinct.mpr ?_))
  cases stated : (library.node registry id).header with
  | none =>
    rw [answer_declared_of_undeclared stated] at given
    cases given
    cases found
  | some header =>
    rw [mem_declared_iff tree (reached.grows begun) (same ▸ stated) asked .refl, same]
    rcases (mem_declared_iff tree reached stated given onward).mp found with
      ⟨entry, inside, leads⟩ | ⟨tier, _, child⟩
    · refine .inl ⟨entry, ?_, leads⟩
      rw [Header.mem_includes_iff] at inside ⊢
      exact ⟨inside.1, rfl⟩
    · exact .inr ⟨tier, rfl, child⟩

theorem mem_of_child (stated : (library.node registry id).header.isSome = true) {child : ResourceId}
    (below : child ∈ (library.node registry id).children) : child ∈ ids := by
  obtain ⟨providers, settled⟩ := expansion.stepped id member
  obtain ⟨last, given⟩ := settled registry .refl
  obtain ⟨all, asked, rfl⟩ := aggregated_runtime_eq_ok_iff.mp given
  obtain ⟨header, present⟩ := Option.isSome_iff_exists.mp stated
  refine expansion.mem_of_step member (settled.finds_iff.mpr (mem_distinct.mpr ?_))
  exact (mem_declared_iff tree reached present asked .refl).mpr (.inr ⟨rfl, rfl, below⟩)

theorem subset_of_member {category : Option Category}
    (inner : Expansion library registry .runtime (localProviders id .runtime category) others) :
    others ⊆ ids := by
  intro other found
  obtain ⟨first, ⟨starts, last, given, begun⟩, way⟩ := (inner.mem_iff other).mp found
  rw [localProviders_eq_declared (by decide)] at given
  clear found
  induction way with
  | refl => exact expansion.subset_of_declared tree reached member given begun
  | tail _ step ih => exact expansion.mem_of_step ih step

end Expansion
end ResourceLibrary
