import ResourceLibrary.Proofs.Library.Repetition
import ResourceLibrary.Proofs.Library.Session

/-!
Sorting by dependencies. What a candidate depends on is the same whenever it is asked for, so the
sort is a walk over edges that are known beforehand. Main statement: a sort lists each candidate
once, behind what it depends on unless that leads back to it, and a strict sort fails exactly where
a candidate leads back to itself.
-/

namespace ResourceLibrary
open Registry (Reached)

def SortEdge (library : Library) (registry : Registry) (candidates : List ResourceId)
    (scope : Scope) (node next : ResourceId) : Prop :=
  node ∈ candidates ∧ next ∈ candidates ∧
    ((∃ providers grown,
        (Query.aggregated node scope true).answer library registry = (.ok providers, grown) ∧
        next ∈ providers) ∨
      (library.node registry node).isModule = true ∧ ∃ modules grown,
        (Query.providerModules node scope).answer library registry = (.ok modules, grown) ∧
        next ∈ modules)

def SortEdgesResolve (library : Library) (registry : Registry) (candidates : List ResourceId)
    (scope : Scope) : Prop :=
  ∀ node ∈ candidates,
    (∃ providers grown,
      (Query.aggregated node scope true).answer library registry = (.ok providers, grown)) ∧
    ((library.node registry node).isModule = true → ∃ modules grown,
      (Query.providerModules node scope).answer library registry = (.ok modules, grown))

namespace Query
variable {library : Library} (tree : library.arena.IsTree) {registry : Registry}
  (reached : Reached library registry) {candidates : List ResourceId}
  (known : ∀ id ∈ candidates, id < registry.next library) {scope : Scope}

def edgesAt (library : Library) (registry : Registry) (candidates : List ResourceId) (scope : Scope)
    (node : ResourceId) : List ResourceId :=
  if node ∈ candidates then
    match (sortEdges candidates scope node).answer library registry with
    | (.ok found, _) => found
    | (.error _, _) => []
  else []

theorem sortEdges_cases {node : ResourceId} {grown : Registry} {ids : List ResourceId}
    (given : (sortEdges candidates scope node).answer library registry = (.ok ids, grown)) :
    ∃ providers middle,
      (aggregated node scope true).answer library registry = (.ok providers, middle) ∧
      if (library.node middle node).isModule = true then
        ∃ modules, (providerModules node scope).answer library middle = (.ok modules, grown) ∧
          ids = (modules.filter candidates.contains).foldl addNew
            (providers.filter candidates.contains)
      else ids = providers.filter candidates.contains := by
  obtain ⟨providers, middle, asked, further⟩ := answer_bind_eq_ok_iff.mp given
  refine ⟨providers, middle, asked, ?_⟩
  rw [answer_bind, answer_node] at further
  simp only at further
  split at further
  · next module =>
    obtain ⟨modules, last, relied, done⟩ := answer_bind_eq_ok_iff.mp further
    cases done
    rw [if_pos module]
    exact ⟨modules, relied, rfl⟩
  · next plain =>
    cases further
    rw [if_neg plain]

theorem answered_iff_of_agree {query : Query (List ResourceId)}
    {rel : ResourceId → ResourceId → Prop} (same : ∀ i j, rel i j → i = j)
    (agree : ∀ world, (World.diagonal reached).Later world →
      Agree world (fun _ => List.Forall₂ rel) query query)
    {later : Registry} (grows : Registry.Grows library registry later) (ids : List ResourceId) :
    (∃ grown, query.answer library later = (.ok ids, grown)) ↔
      ∃ grown, query.answer library registry = (.ok ids, grown) := by
  let side : World library := ⟨later, registry, reached.grows grows, reached⟩
  obtain ⟨after, _, ⟨found, others, left, right, both⟩ | ⟨failure, left, right⟩⟩ :=
    agree side ⟨grows, .refl⟩
  · have alike : found = others := by
      rw [← List.forall₂_eq_eq_eq]
      exact both.imp same
    have first : query.answer library later = (.ok found, after.left) := left
    have second : query.answer library registry = (.ok others, after.right) := right
    simp [first, second, alike]
  · have first : query.answer library later = (.error failure, after.left) := left
    have second : query.answer library registry = (.error failure, after.right) := right
    simp [first, second]

include tree reached known

omit known in
theorem providerModules_again {node : ResourceId} (inside : node < registry.next library)
    {later : Registry} (grows : Registry.Grows library registry later)
    (modules : List ResourceId) :
    (∃ grown, (providerModules node scope).answer library later = (.ok modules, grown)) ↔
      ∃ grown, (providerModules node scope).answer library registry = (.ok modules, grown) :=
  answered_iff_of_agree reached (fun _ _ => World.eq_of_diagonal_same reached)
    (fun _ since => agree_providerModules tree since (World.diagonal_same reached inside) scope)
    grows modules

theorem sortEdges_again {node : ResourceId} (member : node ∈ candidates) {later : Registry}
    (grows : Registry.Grows library registry later) (ids : List ResourceId) :
    (∃ grown, (sortEdges candidates scope node).answer library later = (.ok ids, grown)) ↔
      ∃ grown, (sortEdges candidates scope node).answer library registry = (.ok ids, grown) :=
  answered_iff_of_agree reached (fun _ _ both => both.1)
    (fun _ since => agree_sortEdges_self tree reached known since member scope) grows ids

theorem resolve_of_sortEdges (asked : ∀ node ∈ candidates, ∃ found grown,
      (sortEdges candidates scope node).answer library registry = (.ok found, grown)) :
    SortEdgesResolve library registry candidates scope := by
  intro node member
  obtain ⟨found, last, given⟩ := asked node member
  obtain ⟨providers, middle, provided, rest⟩ := sortEdges_cases given
  refine ⟨⟨providers, middle, provided⟩, fun module => ?_⟩
  have grows := (growing_aggregated node scope true).grows provided
  rw [← grows.node (known node member)] at module
  rw [if_pos module] at rest
  obtain ⟨modules, relied, _⟩ := rest
  exact ⟨modules,
    (providerModules_again tree reached (known node member) grows modules).mp ⟨last, relied⟩⟩

theorem sortEdges_of_resolve (resolve : SortEdgesResolve library registry candidates scope)
    {node : ResourceId} (member : node ∈ candidates) :
    ∃ found grown, (sortEdges candidates scope node).answer library registry = (.ok found, grown) ∧
      ∀ next, next ∈ found ↔ SortEdge library registry candidates scope node next := by
  obtain ⟨⟨providers, middle, asked⟩, modular⟩ := resolve node member
  have grows := (growing_aggregated node scope true).grows asked
  have module := grows.node (known node member)
  have direct : ∀ next, next ∈ providers.filter candidates.contains ↔
      next ∈ candidates ∧ next ∈ providers := by
    intro next
    rw [List.mem_filter, List.contains_iff_mem]
    exact and_comm
  unfold sortEdges
  rw [answer_bind, asked]
  simp only
  rw [answer_bind, answer_node]
  simp only
  rw [module]
  by_cases isModule : (library.node registry node).isModule = true
  · obtain ⟨modules, grown, given⟩ := modular isModule
    -- The modules are asked for behind the providers.
    obtain ⟨later, again⟩ :=
      (providerModules_again tree reached (known node member) grows modules).mpr ⟨grown, given⟩
    rw [if_pos isModule, answer_bind, again]
    refine ⟨_, _, rfl, fun next => ?_⟩
    rw [mem_foldl_addNew, direct, List.mem_filter, List.contains_iff_mem]
    constructor
    · rintro (⟨listed, provided⟩ | ⟨inModules, listed⟩)
      · exact ⟨member, listed, .inl ⟨providers, middle, asked, provided⟩⟩
      · exact ⟨member, listed, .inr ⟨isModule, modules, grown, given, inModules⟩⟩
    · rintro ⟨_, listed, ⟨others, _, also, provided⟩ | ⟨_, others, _, also, inModules⟩⟩
      · rw [asked] at also
        cases also
        exact .inl ⟨listed, provided⟩
      · rw [given] at also
        cases also
        exact .inr ⟨inModules, listed⟩
  · rw [if_neg isModule]
    refine ⟨_, _, rfl, fun next => ?_⟩
    rw [direct]
    constructor
    · rintro ⟨listed, provided⟩
      exact ⟨member, listed, .inl ⟨providers, middle, asked, provided⟩⟩
    · rintro ⟨_, listed, ⟨others, _, also, provided⟩ | ⟨module, _⟩⟩
      · rw [asked] at also
        cases also
        exact ⟨listed, provided⟩
      · exact absurd module isModule

section
variable (resolve : SortEdgesResolve library registry candidates scope)
include resolve

theorem edge_edgesAt :
    Walk.Edge (edgesAt library registry candidates scope) =
      SortEdge library registry candidates scope := by
  funext node next
  apply propext
  unfold Walk.Edge edgesAt
  by_cases member : node ∈ candidates
  · obtain ⟨found, grown, given, edges⟩ :=
      sortEdges_of_resolve tree reached known resolve member
    rw [if_pos member, given]
    exact edges next
  · rw [if_neg member]
    constructor
    · intro inside
      cases inside
    · exact fun edge => absurd edge.1 member

/-- What a candidate depends on is found again at any later time. -/
theorem agree_edgesAt {world : World library} (since : (World.diagonal reached).Later world)
    {node : ResourceId} (member : node ∈ candidates) :
    Agree world (fun _ => List.Forall₂ fun i j => i = j ∧ i ∈ candidates)
      (sortEdges candidates scope node)
      (pure (edgesAt library registry candidates scope node)) := by
  let side : World library := ⟨world.left, registry, world.leftReached, reached⟩
  have before : (World.diagonal reached).Later side := ⟨since.1, .refl⟩
  obtain ⟨found, grown, given, _⟩ := sortEdges_of_resolve tree reached known resolve member
  have first : edgesAt library registry candidates scope node = found := by
    rw [edgesAt, if_pos member, given]
  have agree := agree_sortEdges_self tree reached known before member scope
  obtain ⟨later, after, ⟨xs, ys, left, right, both⟩ | ⟨failure, _, right⟩⟩ := agree
  · rw [given, Prod.mk.injEq, Except.ok.injEq] at right
    refine ⟨⟨later.left, world.right, later.leftReached, world.rightReached⟩,
      ⟨after.1, .refl⟩, .inl ⟨xs, found, left, ?_, ?_⟩⟩
    · rw [first]
      rfl
    · rw [right.1]
      exact both
  · rw [given] at right
    cases right

theorem postOrder_sortEdges :
    ∃ grown, Registry.Grows library registry grown ∧
      (Walk.postOrder (registry.next library + 1) (sortEdges candidates scope)
        candidates).answer library registry =
          (.ok (Walk.traced (edgesAt library registry candidates scope)
            (registry.next library + 1) candidates), grown) := by
  have walked : Agree (World.diagonal reached)
      (World.SameWalk fun _ i j => i = j ∧ i ∈ candidates)
      (Walk.postOrder (registry.next library + 1) (sortEdges candidates scope) candidates)
      (Walk.postOrder (registry.next library + 1)
        (fun node => pure (edgesAt library registry candidates scope node)) candidates) := by
    refine agree_postOrder (fun _ _ _ _ _ related => related) ?unique ?step
      (List.forall₂_same.mpr fun id member => ⟨rfl, member⟩)
    case unique =>
      intro _ _
      constructor
      · exact fun _ _ _ one two => one.1.trans two.1.symm
      · exact fun _ _ _ one two => one.1.symm.trans two.1
    case step =>
      rintro world since id _ ⟨rfl, member⟩
      apply (agree_edgesAt tree reached known resolve since member).imp
      exact fun _ _ _ _ both => ⟨both, fun _ => ⟨known id member, known id member⟩⟩
  rw [Walk.postOrder_pure] at walked
  obtain ⟨later, since, ⟨walk, other, left, right, same⟩ | ⟨failure, _, right⟩⟩ := walked
  · rw [answer_pure, Prod.mk.injEq, Except.ok.injEq] at right
    rw [World.eq_of_sameWalk same, ← right.1] at left
    exact ⟨later.left, since.1, left⟩
  · rw [answer_pure, Prod.mk.injEq] at right
    cases right.1

theorem bounded_edgesAt :
    Walk.Bounded (edgesAt library registry candidates scope) (· ∈ candidates)
      (distinct candidates) := by
  constructor
  · intro node _ next edge
    have sorted : SortEdge library registry candidates scope node next := by
      rw [← edge_edgesAt tree reached known resolve]
      exact edge
    exact sorted.2.1
  · intro node member _ _
    exact mem_distinct.mpr member

end

omit tree reached in
theorem length_distinct_lt : (distinct candidates).length < registry.next library + 1 := by
  have inside : distinct candidates ⊆ List.range (registry.next library) := by
    intro id member
    exact List.mem_range.mpr (known id (mem_distinct.mp member))
  have shorter := (nodup_distinct candidates).length_le_of_subset inside
  rw [List.length_range] at shorter
  omega

omit tree reached known in
theorem answer_sort {walk : Walk ResourceId} {grown : Registry}
    (walked : (Walk.postOrder (registry.next library + 1) (sortEdges candidates scope)
      candidates).answer library registry = (.ok walk, grown)) (strict : Bool) :
    (sort candidates scope strict).answer library registry =
      match strict, walk.cycles with
      | true, cycle :: _ =>
        (.error (.circularDependency (cycle.map fun id => (library.node grown id).path.text)),
          grown)
      | _, _ => (.ok walk.order, grown) := by
  rw [sort, answer_bind, answer_depth]
  simp only
  rw [answer_bind, walked]
  simp only
  cases strict with
  | false => rfl
  | true =>
    cases walk.cycles with
    | nil => rfl
    | cons cycle rest => rfl

end Query

namespace Library

/-- A sort lists each candidate once, and behind what it depends on unless that leads back to it. A
strict sort shows a way back if there is any, and does the same as a lenient one if there is
none. -/
theorem sort_of_resolve {settings : Settings} {host : Host} {load : ImportLoader}
    {catalog : Catalog} {library : Library}
    (built : build settings host load catalog = .ok library) (earlier : List Request)
    (candidates : List ResourceId) (scope : Scope)
    (known : ∀ id ∈ candidates, id < library.frozen.size + (library.after earlier).nodes.size)
    (resolve : SortEdgesResolve library (library.after earlier) candidates scope) :
    let registry := library.after earlier
    let edge := SortEdge library registry candidates scope
    ∃ order grown,
      (Query.sort candidates scope false).answer library registry = (.ok order, grown) ∧
      order.Nodup ∧ (∀ id, id ∈ order ↔ id ∈ candidates) ∧
      (∀ node next, edge node next → ¬Relation.ReflTransGen edge next node →
        Walk.Precedes order next node) ∧
      ((∃ id ∈ candidates, Relation.TransGen edge id id) →
        ∃ node inner, (node :: (inner ++ [node])).IsChain edge ∧
          (Query.sort candidates scope true).answer library registry =
            (.error (.circularDependency ((node :: (inner ++ [node])).map fun id =>
              (library.node registry id).path.text)), grown)) ∧
      ((∀ id ∈ candidates, ¬Relation.TransGen edge id id) →
        (Query.sort candidates scope true).answer library registry = (.ok order, grown)) := by
  intro registry edge
  have tree := isTree_of_build built
  have reached := reached_after library earlier
  have edges : Walk.Edge (Query.edgesAt library registry candidates scope) = edge :=
    Query.edge_edgesAt tree reached known resolve
  have bounded := Query.bounded_edgesAt tree reached known resolve
  have room := Query.length_distinct_lt known
  obtain ⟨grown, grows, walked⟩ := Query.postOrder_sortEdges tree reached known resolve
  have started : ∀ id ∈ candidates, id ∈ candidates := fun _ member => member
  have sound := (Walk.passed_traced bounded room started).sound
  have listed := Walk.mem_order_traced_starts bounded room
  have quiet := Walk.cycles_traced_eq_nil_iff bounded room started
  rw [edges] at quiet
  generalize Walk.traced _ _ candidates = walk at walked sound listed quiet
  refine ⟨walk.order, grown, Query.answer_sort walked false, sound.single, listed, ?_, ?_, ?_⟩
  · intro node next depends away
    have member : next ∈ Query.edgesAt library registry candidates scope node := by
      change Walk.Edge _ node next
      rw [edges]
      exact depends
    apply (sound.earlier node ((listed node).mpr depends.1) next member).resolve_right
    rw [Walk.Reaches, edges]
    exact away
  · rintro ⟨id, member, back⟩
    cases recorded : walk.cycles with
    | nil => exact absurd back (quiet.mp recorded id ((listed id).mpr member))
    | cons cycle rest =>
      obtain ⟨node, inner, shape, chain⟩ := sound.loops cycle (by simp [recorded])
      have texts : cycle.map (fun id => (library.node grown id).path.text) =
          cycle.map fun id => (library.node registry id).path.text := by
        refine List.map_congr_left fun id inCycle => ?_
        have emitted := (sound.kept cycle (by simp [recorded]) id inCycle).resolve_right (by simp)
        rw [grows.node (known id ((listed id).mp emitted))]
      have failed := Query.answer_sort walked true
      rw [recorded] at failed
      simp only at failed
      rw [texts] at failed
      rw [edges] at chain
      subst shape
      exact ⟨node, inner, chain, failed⟩
  · intro straight
    have none := quiet.mpr fun id emitted => straight id ((listed id).mp emitted)
    have answer := Query.answer_sort walked true
    rw [none] at answer
    exact answer

def circle : Catalog :=
  Catalog.empty.withResource (((Declaration.module "loop").withNested
    ((Declaration.resource "a").withInclude .runtime (.of .key "b"))).withNested
    ((Declaration.resource "b").withInclude .runtime (.of .key "a")))

theorem sort_of_resolve_circle :
    ∃ library, build (.ofRoot ⟨"/"⟩) "now" .none circle = .ok library ∧
      SortEdgesResolve library (library.after []) [2, 3, 2] .test ∧
      ∃ order grown,
        (Query.sort [2, 3, 2] .test false).answer library (library.after []) = (.ok order, grown) ∧
        order.Nodup ∧ (∀ id, id ∈ order ↔ id ∈ [2, 3, 2]) ∧
        ∃ texts, (Query.sort [2, 3, 2] .test true).answer library (library.after []) =
            (.error (.circularDependency texts), grown) := by
  obtain ⟨library, built, size, first, second, one, two⟩ : ∃ library,
      build (.ofRoot ⟨"/"⟩) "now" .none circle = .ok library ∧ library.frozen.size = 4 ∧
      (Query.aggregated 2 .test true).answer library .empty = (.ok [3], .empty) ∧
      (Query.aggregated 3 .test true).answer library .empty = (.ok [2], .empty) ∧
      (library.node .empty 2).isModule = false ∧ (library.node .empty 3).isModule = false :=
    ⟨_, rfl, rfl, rfl, rfl, rfl, rfl⟩
  have members : ∀ id ∈ ([2, 3, 2] : List ResourceId), id = 2 ∨ id = 3 := by simp
  have known : ∀ id ∈ [2, 3, 2], id < library.frozen.size + (library.after []).nodes.size := by
    intro id member
    rw [size]
    change id < 4 + 0
    rcases members id member with rfl | rfl <;> decide
  have resolve : SortEdgesResolve library (library.after []) [2, 3, 2] .test := by
    intro id member
    rcases members id member with rfl | rfl
    · exact ⟨⟨_, _, first⟩, fun isModule => by simp [after, afterFrom, one] at isModule⟩
    · exact ⟨⟨_, _, second⟩, fun isModule => by simp [after, afterFrom, two] at isModule⟩
  obtain ⟨order, grown, sorted, single, listed, _, fails, _⟩ :=
    sort_of_resolve built [] [2, 3, 2] .test known resolve
  have back : Relation.TransGen (SortEdge library (library.after []) [2, 3, 2] .test) 2 2 := by
    refine .tail (.single (b := 3) ?_) ?_
    · exact ⟨by simp, by simp, .inl ⟨_, _, first, by simp⟩⟩
    · exact ⟨by simp, by simp, .inl ⟨_, _, second, by simp⟩⟩
  obtain ⟨node, inner, _, failed⟩ := fails ⟨2, by simp, back⟩
  exact ⟨library, built, resolve, order, grown, sorted, single, listed, _, failed⟩

end Library
end ResourceLibrary
