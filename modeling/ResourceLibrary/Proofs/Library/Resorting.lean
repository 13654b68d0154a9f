import ResourceLibrary.Proofs.Library.DependencyOrder
import ResourceLibrary.Proofs.Library.Sorting

/-!
Sorting what is sorted. Main statement: candidates that are listed once each, behind all that they
depend on, are given back by a sort as they are; and what a strict sort has found stays so at any
later time, as does any part of it.
-/

namespace ResourceLibrary
open Registry (Grows Reached)

/-- Each candidate is listed once, behind all that it depends on. -/
structure InOrder (library : Library) (registry : Registry) (candidates : List ResourceId)
    (scope : Scope) : Prop where
  single : candidates.Nodup
  behind : ∀ node ∈ candidates, ∃ found grown,
    (Query.sortEdges candidates scope node).answer library registry = (.ok found, grown) ∧
      ∀ next ∈ found, Walk.Precedes candidates next node

theorem Walk.precedes_of_sublist {α : Type} {order part : List α} {first second : α}
    (single : order.Nodup) (before : Precedes order first second) (kept : part.Sublist order)
    (one : first ∈ part) (two : second ∈ part) : Precedes part first second := by
  obtain ⟨front, back, rfl, member⟩ := before
  obtain ⟨early, late, rfl, fromFront, fromBack⟩ := List.sublist_append_iff.mp kept
  have apart := (List.nodup_append.mp single).2.2
  have sole := (List.nodup_cons.mp (List.nodup_append.mp single).2.1).1
  have outside : first ∉ late := fun again =>
    apart first member first (fromBack.subset again) rfl
  have fresh : second ∉ early := fun again =>
    apart second (fromFront.subset again) second List.mem_cons_self rfl
  have later : second ∈ late := (List.mem_append.mp two).resolve_left fresh
  rcases List.sublist_cons_iff.mp fromBack with skipped | ⟨rest, rfl, _⟩
  · exact absurd (skipped.subset later) sole
  · exact ⟨early, rest, rfl, (List.mem_append.mp one).resolve_right outside⟩

namespace Query
variable {library : Library} {registry grown : Registry} {candidates order : List ResourceId}
  {scope : Scope}

theorem sortEdges_of_subset {part : List ResourceId} (inside : part ⊆ candidates)
    {node : ResourceId} {ids : List ResourceId}
    (given : (sortEdges candidates scope node).answer library registry = (.ok ids, grown)) :
    ∃ found last, (sortEdges part scope node).answer library registry = (.ok found, last) ∧
      ∀ next ∈ found, next ∈ ids ∧ next ∈ part := by
  obtain ⟨providers, middle, asked, rest⟩ := sortEdges_cases given
  have fewer : ∀ {found : List ResourceId} {next}, next ∈ found.filter part.contains →
      next ∈ found.filter candidates.contains ∧ next ∈ part := by
    intro found next member
    simp only [List.mem_filter, List.contains_iff_mem] at member ⊢
    exact ⟨⟨member.1, inside member.2⟩, member.2⟩
  unfold sortEdges
  rw [answer_bind, asked]
  simp only
  rw [answer_bind, answer_node]
  simp only
  split at rest
  · next module =>
    obtain ⟨modules, relied, rfl⟩ := rest
    rw [if_pos module, answer_bind, relied]
    refine ⟨_, _, rfl, fun next member => ?_⟩
    rw [mem_foldl_addNew]
    rcases mem_foldl_addNew.mp member with direct | further
    · exact ⟨.inl (fewer direct).1, (fewer direct).2⟩
    · exact ⟨.inr (fewer further).1, (fewer further).2⟩
  · next plain =>
    cases rest
    rw [if_neg plain]
    exact ⟨_, _, rfl, fun next member => fewer member⟩

section
variable (tree : library.arena.IsTree) (reached : Reached library registry)
  (known : ∀ id ∈ candidates, id < registry.next library)
include tree reached known

theorem sort_eq_of_inOrder (sorted : InOrder library registry candidates scope) :
    ∃ grown, ∀ strict,
      (sort candidates scope strict).answer library registry = (.ok candidates, grown) := by
  have resolve : SortEdgesResolve library registry candidates scope := by
    refine resolve_of_sortEdges tree reached known fun node member => ?_
    obtain ⟨found, last, given, _⟩ := sorted.behind node member
    exact ⟨found, last, given⟩
  have earlier : ∀ node ∈ candidates, ∀ next ∈ edgesAt library registry candidates scope node,
      Walk.Precedes candidates next node := by
    intro node member next edge
    obtain ⟨found, last, given, before⟩ := sorted.behind node member
    rw [edgesAt, if_pos member, given] at edge
    exact before next edge
  obtain ⟨grown, _, walked⟩ := postOrder_sortEdges tree reached known resolve
  rw [Walk.traced_of_precedes sorted.single earlier] at walked
  refine ⟨grown, fun strict => ?_⟩
  rw [answer_sort walked strict]
  cases strict <;> rfl

variable (given : (sort candidates scope true).answer library registry = (.ok order, grown))
include given

/-- What a strict sort has found is in order from then on, and so is each part of it. -/
theorem inOrder_of_sort {later : Registry} (grows : Grows library grown later)
    {part : List ResourceId} (kept : part.Sublist order) : InOrder library later part scope := by
  obtain ⟨single, listed⟩ := mem_of_sort tree reached known given
  have inside : part ⊆ candidates := fun id member => (listed id).mp (kept.subset member)
  refine ⟨kept.nodup single, fun node member => ?_⟩
  obtain ⟨ids, settled⟩ := sortEdges_of_sort tree reached known given (inside member)
  obtain ⟨_, asked⟩ := settled later grows
  obtain ⟨found, last, again, fewer⟩ := sortEdges_of_subset inside asked
  refine ⟨found, last, again, fun next edge => ?_⟩
  have before := precedes_of_sort tree reached known given (inside member)
    (settled.finds_iff.mpr (fewer next edge).1)
  exact Walk.precedes_of_sublist single before kept (fewer next edge).2 member

theorem inOrder_of_sort_eq (same : order = candidates) :
    InOrder library registry candidates scope := by
  -- What is in order once it was sorted is so before, since the edges are the same.
  have sorted := inOrder_of_sort tree reached known given .refl (List.Sublist.refl order)
  have grows := (growing_sort candidates scope true).grows given
  subst same
  refine ⟨sorted.single, fun node member => ?_⟩
  obtain ⟨found, last, asked, before⟩ := sorted.behind node member
  obtain ⟨early, first⟩ :=
    (sortEdges_again tree reached known member grows found).mp ⟨last, asked⟩
  exact ⟨found, early, first, before⟩

end

end Query

namespace Library

/-- Sorting leaves candidates that are in order as they are, leniently and strictly, and a strict
sort leaves no others so. What it finds is left as it is by every later sort, whole and in part. -/
theorem sort_of_inOrder {settings : Settings} {host : Host} {load : ImportLoader}
    {catalog : Catalog} {library : Library}
    (built : build settings host load catalog = .ok library) (earlier : List Request)
    (scope : Scope) (candidates : List ResourceId)
    (known : ∀ id ∈ candidates, id < library.frozen.size + (library.after earlier).nodes.size) :
    let registry := library.after earlier
    (InOrder library registry candidates scope → ∃ grown, ∀ strict,
      (Query.sort candidates scope strict).answer library registry = (.ok candidates, grown)) ∧
    ∀ order grown,
      (Query.sort candidates scope true).answer library registry = (.ok order, grown) →
      (order = candidates → InOrder library registry candidates scope) ∧
      ∀ more : List Request, ∀ part, part.Sublist order → ∃ last, ∀ strict,
        (Query.sort part scope strict).answer library (library.afterFrom grown more) =
          (.ok part, last) := by
  intro registry
  have tree := isTree_of_build built
  have reached := reached_after library earlier
  refine ⟨Query.sort_eq_of_inOrder tree reached known, fun order grown given => ⟨?_, ?_⟩⟩
  · exact Query.inOrder_of_sort_eq tree reached known given
  · intro more part kept
    have grows := (Query.growing_sort candidates scope true).grows given
    have onward := library.grows_afterFrom grown more
    have since : Grows library registry (library.afterFrom grown more) := grows.trans onward
    have inside : ∀ id ∈ part, id < (library.afterFrom grown more).next library := by
      intro id member
      have listed := ((Query.mem_of_sort tree reached known given).2 id).mp (kept.subset member)
      exact Nat.lt_of_lt_of_le (known id listed) since.next_le
    exact Query.sort_eq_of_inOrder tree (reached.grows since) inside
      (Query.inOrder_of_sort tree reached known given onward kept)

def chain : Catalog :=
  Catalog.empty.withResource (((Declaration.module "shop").withNested
    ((Declaration.resource "app").withInclude .runtime (.of .key "core"))).withNested
    (Declaration.resource "core"))

theorem sort_of_inOrder_chain :
    ∃ library, build (.ofRoot ⟨"/"⟩) "now" .none chain = .ok library ∧
      InOrder library (library.after []) [3, 2] .test ∧
      (∃ grown, ∀ strict,
        (Query.sort [3, 2] .test strict).answer library (library.after []) =
          (.ok [3, 2], grown)) ∧
      ∃ grown,
        (Query.sort [2, 3] .test true).answer library (library.after []) = (.ok [3, 2], grown) ∧
        ∀ more part, part.Sublist [3, 2] → ∃ last, ∀ strict,
          (Query.sort part .test strict).answer library (library.afterFrom grown more) =
            (.ok part, last) := by
  obtain ⟨library, built, size, app, core, sorted⟩ : ∃ library,
      build (.ofRoot ⟨"/"⟩) "now" .none chain = .ok library ∧ library.frozen.size = 4 ∧
      (Query.sortEdges [3, 2] .test 2).answer library .empty = (.ok [3], .empty) ∧
      (Query.sortEdges [3, 2] .test 3).answer library .empty = (.ok [], .empty) ∧
      (Query.sort [2, 3] .test true).answer library .empty = (.ok [3, 2], .empty) :=
    ⟨_, rfl, rfl, rfl, rfl, rfl⟩
  have known : ∀ id ∈ ([3, 2] : List ResourceId),
      id < library.frozen.size + (library.after []).nodes.size := by
    rw [size]
    change ∀ id ∈ [3, 2], id < 4 + 0
    decide
  have ordered : InOrder library (library.after []) [3, 2] .test := by
    refine ⟨by decide, fun node member => ?_⟩
    simp only [List.mem_cons, List.not_mem_nil, or_false] at member
    rcases member with rfl | rfl
    · exact ⟨[], .empty, core, by simp⟩
    · refine ⟨[3], .empty, app, fun next edge => ⟨[3], [], rfl, edge⟩⟩
  have swapped : ∀ id ∈ [2, 3], id < library.frozen.size + (library.after []).nodes.size :=
    fun id member => known id (by simpa [or_comm] using member)
  refine ⟨library, built, ordered, ?_, .empty, sorted, ?_⟩
  · exact (sort_of_inOrder built [] .test [3, 2] known).1 ordered
  · exact ((sort_of_inOrder built [] .test [2, 3] swapped).2 [3, 2] .empty sorted).2

end Library
end ResourceLibrary
