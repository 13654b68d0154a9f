import ResourceLibrary.Proofs.Library.Aggregation
import ResourceLibrary.Proofs.Library.Includes
import ResourceLibrary.Proofs.Library.WithoutBuild

/-!
Classpaths. Main statement: a classpath lists, each once, the jars that the resource reaches along
the tiers above BUILD, in dependency order where there is one; so what is included at BUILD changes
nothing but this order.
-/

namespace ResourceLibrary
open Registry (Grows Reached)

/-- A step of a classpath at a scope, along RUNTIME or, at TEST, along TEST. -/
def ClasspathStep (library : Library) (registry : Registry) (scope : Scope)
    (id next : ResourceId) : Prop :=
  scope ≠ .build ∧ BringsIn library registry .runtime none id next ∨
    scope = .test ∧ BringsIn library registry .test none id next

/-- The same resource in two libraries with the same numbers: a frozen one, or one at the same level
above the resource of a coordinate. -/
def SamePlace (library : Library) (left right : Registry) (i j : ResourceId) : Prop :=
  i = j ∧ i < library.frozen.size ∨
    ∃ urn level, Registry.Within left urn level i ∧ Registry.Within right urn level j

section
variable {library : Library} {registry : Registry} {scope : Scope} {id next : ResourceId}

theorem Scope.tiers_false_subset (scope : Scope) : scope.tiers false ⊆ scope.tiers true := by
  cases scope <;> decide

theorem Scope.mem_tiers_iff {tier : Scope} :
    tier ∈ scope.tiers false ↔ scope ≠ .build ∧ tier = .runtime ∨ scope = .test ∧ tier = .test := by
  cases scope <;> cases tier <;> decide

theorem classpathStep_iff :
    ClasspathStep library registry scope id next ↔
      ∃ tier ∈ scope.tiers false, BringsIn library registry tier none id next := by
  simp only [Scope.mem_tiers_iff]
  constructor
  · rintro (⟨above, brings⟩ | ⟨test, brings⟩)
    · exact ⟨.runtime, .inl ⟨above, rfl⟩, brings⟩
    · exact ⟨.test, .inr ⟨test, rfl⟩, brings⟩
  · rintro ⟨_, ⟨above, rfl⟩ | ⟨test, rfl⟩, brings⟩
    · exact .inl ⟨above, brings⟩
    · exact .inr ⟨test, brings⟩

theorem ClasspathStep.above (step : ClasspathStep library registry scope id next) :
    scope ≠ .build := by
  rcases step with ⟨above, _⟩ | ⟨rfl, _⟩
  · exact above
  · decide

theorem SortEdge.mono {candidates members : List ResourceId} (inside : candidates ⊆ members)
    (edge : SortEdge library registry candidates scope id next) :
    SortEdge library registry members scope id next :=
  ⟨inside edge.1, inside edge.2.1, edge.2.2⟩

end

theorem Walk.precedes_filter {α : Type} {order : List α} {first second : α} {p : α → Bool}
    (before : Precedes order first second) (one : p first = true) (two : p second = true) :
    Precedes (order.filter p) first second := by
  obtain ⟨front, back, rfl, member⟩ := before
  refine ⟨front.filter p, back.filter p, ?_, List.mem_filter.mpr ⟨member, one⟩⟩
  rw [List.filter_append, List.filter_cons_of_pos two]

namespace Query
variable {library : Library} (tree : library.arena.IsTree) {registry grown : Registry}
  (reached : Reached library registry) {id : ResourceId} {scope : Scope} {ids : List ResourceId}
include tree reached

theorem finds_aggregated_iff_step (known : id < registry.next library)
    (settled : Settled library registry (aggregated id scope false) ids)
    (inside : ∀ other ∈ ids, other < registry.next library) {next : ResourceId} :
    Finds library registry (aggregated id scope false) next ↔
      ClasspathStep library registry scope id next := by
  obtain ⟨last, given⟩ := settled registry .refl
  have grows := (growing_aggregated id scope false).grows given
  obtain ⟨each, members⟩ := finds_aggregated_iff tree reached known given
  -- Each tier is asked for once more, and what it says then is read back to this time.
  have later : ∀ tier ∈ scope.tiers false, ∃ after, Grows library registry after ∧
      (Finds library last (localProviders id tier none) next ↔
        BringsIn library after tier none id next) := by
    intro tier among
    obtain ⟨others, provided⟩ := each tier among
    obtain ⟨after, asked⟩ := provided last .refl
    have onward := (growing_localProviders id tier none).grows asked
    have above : tier ≠ .build := by
      rintro rfl
      exact scope.build_not_mem_tiers among
    rw [localProviders_eq_declared above] at asked
    refine ⟨after, grows.trans onward, ?_⟩
    rw [provided.finds_iff, mem_declared_iff_bringsIn tree (reached.grows grows)
      (Nat.lt_of_lt_of_le known grows.next_le) asked .refl]
  rw [settled.finds_iff, members, classpathStep_iff]
  refine exists_congr fun tier => and_congr_right fun among => ?_
  obtain ⟨after, since, same⟩ := later tier among
  constructor
  · intro found
    have member := (members next).mpr ⟨tier, among, found⟩
    exact (same.mp found).earlier tree reached since known (inside next member)
  · intro brings
    exact same.mpr (brings.later tree reached since known)

theorem expansionStep_iff_step {start : Query (List ResourceId)}
    (expansion : Expansion library registry scope start ids) (above : scope ≠ .build)
    {other next : ResourceId} (member : other ∈ ids) :
    ExpansionStep library registry scope other next ↔
      ClasspathStep library registry scope other next := by
  have skipped : decide (scope = .build) = false := decide_eq_false above
  obtain ⟨providers, settled⟩ := expansion.stepped other member
  have inside : ∀ provider ∈ providers, provider < registry.next library := fun provider given =>
    expansion.known provider (expansion.mem_of_step member (settled.finds_iff.mpr given))
  rw [skipped] at settled
  rw [ExpansionStep, skipped]
  exact finds_aggregated_iff_step tree reached (expansion.known other member) settled inside

theorem mem_expansion_iff (known : id < registry.next library)
    (expansion : Expansion library registry scope (aggregated id scope false) ids)
    {found : ResourceId} :
    found ∈ ids ↔ Relation.TransGen (ClasspathStep library registry scope) id found := by
  have first : ∀ next, Finds library registry (aggregated id scope false) next ↔
      ClasspathStep library registry scope id next := by
    intro next
    obtain ⟨starts, settled⟩ := expansion.started
    refine finds_aggregated_iff_step tree reached known settled fun other member => ?_
    exact expansion.known other (expansion.mem_of_finds (settled.finds_iff.mpr member))
  constructor
  · intro member
    obtain ⟨start, found, way⟩ := (expansion.mem_iff _).mp member
    have begun := (first start).mp found
    clear member
    induction way with
    | refl => exact .single begun
    | tail before step ih =>
      have inside := (expansion.mem_iff _).mpr ⟨start, found, before⟩
      exact .tail ih ((expansionStep_iff_step tree reached expansion begun.above inside).mp step)
  · intro way
    induction way with
    | single step => exact expansion.mem_of_finds ((first _).mpr step)
    | tail _ step ih =>
      exact expansion.mem_of_step ih
        ((expansionStep_iff_step tree reached expansion step.above ih).mpr step)

section
variable {candidates order : List ResourceId}
  (inside : ∀ id ∈ candidates, id < registry.next library)
  (given : (sort candidates scope false).answer library registry = (.ok order, grown))
include inside given

theorem resolve_of_sort : SortEdgesResolve library grown candidates scope := by
  have grows := (growing_sort candidates scope false).grows given
  refine resolve_of_sortEdges tree (reached.grows grows)
    (fun id member => Nat.lt_of_lt_of_le (inside id member) grows.next_le) fun node member => ?_
  obtain ⟨ids, settled⟩ := sortEdges_of_sort tree reached inside given member
  exact ⟨ids, settled grown .refl⟩

/-- A sort puts a candidate behind what it depends on unless that leads back to it. -/
theorem precedes_or_returns {node next : ResourceId}
    (edge : SortEdge library grown candidates scope node next) :
    Walk.Precedes order next node ∨
      Relation.ReflTransGen (SortEdge library grown candidates scope) next node := by
  have grows := (growing_sort candidates scope false).grows given
  have resolve := resolve_of_sort tree reached inside given
  have listed := (mem_of_sort tree reached inside given).2
  obtain ⟨walk, rfl, _, passed, _⟩ := passed_of_sort tree reached inside given
  have edges : Walk.Edge (edgesAmong library grown (sortEdges candidates scope) walk.order) =
      SortEdge library grown candidates scope := by
    funext node next
    apply propext
    unfold Walk.Edge edgesAmong
    by_cases member : node ∈ walk.order
    · obtain ⟨found, last, asked, same⟩ := sortEdges_of_resolve tree (reached.grows grows)
        (fun id listed => Nat.lt_of_lt_of_le (inside id listed) grows.next_le) resolve
        ((listed node).mp member)
      rw [if_pos member, found_eq_of_answer asked, same]
    · rw [if_neg member]
      exact iff_of_false List.not_mem_nil fun edge => member ((listed node).mpr edge.1)
  have member := (listed node).mpr edge.1
  rw [← edges] at edge ⊢
  exact passed.sound.earlier node member next edge

end

section
variable (known : id < registry.next library)
  (given : (classpath id scope).answer library registry = (.ok ids, grown))
include known given

theorem classpath_cases :
    ∃ found middle sorted,
      (aggregatedProviders id scope true false).answer library registry = (.ok found, middle) ∧
      Expansion library middle scope (aggregated id scope false) found ∧
      (sort found scope false).answer library middle = (.ok sorted, grown) ∧ sorted.Perm found ∧
      ids = sorted.filter fun id => (library.node grown id).produces classpathType := by
  obtain ⟨found, middle, asked, further⟩ := answer_bind_eq_ok_iff.mp given
  obtain ⟨sorted, last, ordered, done⟩ := answer_bind_eq_ok_iff.mp further
  cases done
  have begun := reached.grows ((growing_aggregatedProviders id scope true false).grows asked)
  have expansion : Expansion library middle scope (aggregated id scope false) found :=
    expansion_of_expanded tree reached (steady_aggregated tree reached scope false) known asked
  obtain ⟨single, members⟩ := mem_of_sort tree begun expansion.known ordered
  have same := (List.perm_ext_iff_of_nodup single expansion.single).mpr members
  exact ⟨found, middle, sorted, asked, expansion, ordered, same, rfl⟩

/-- A classpath lists the jars that the resource reaches along the tiers above BUILD, each once. -/
theorem mem_of_classpath :
    ids.Nodup ∧ ∀ found, found ∈ ids ↔
      (library.node grown found).produces classpathType = true ∧
        Relation.TransGen (ClasspathStep library grown scope) id found := by
  have grows := (growing_classpath id scope).grows given
  obtain ⟨found, middle, sorted, asked, expansion, ordered, same, rfl⟩ :=
    classpath_cases tree reached known given
  have last := expansion.later ((growing_sort found scope false).grows ordered)
  refine ⟨(same.nodup_iff.mpr expansion.single).filter _, fun other => ?_⟩
  rw [List.mem_filter, same.mem_iff, mem_expansion_iff tree (reached.grows grows)
    (Nat.lt_of_lt_of_le known grows.next_le) last]
  exact and_comm

theorem precedes_of_classpath {members : List ResourceId}
    (listed : ∀ found, Relation.TransGen (ClasspathStep library grown scope) id found →
      found ∈ members)
    (straight : ∀ found ∈ members,
      ¬Relation.TransGen (SortEdge library grown members scope) found found)
    {first next : ResourceId} (one : first ∈ ids) (two : next ∈ ids)
    (step : ClasspathStep library grown scope first next) : Walk.Precedes ids next first := by
  have grows := (growing_classpath id scope).grows given
  have reach := reached.grows grows
  obtain ⟨found, middle, sorted, asked, expansion, ordered, same, rfl⟩ :=
    classpath_cases tree reached known given
  have begun := reached.grows ((growing_aggregatedProviders id scope true false).grows asked)
  have last := expansion.later ((growing_sort found scope false).grows ordered)
  obtain ⟨inSorted, jar⟩ := List.mem_filter.mp one
  obtain ⟨alsoSorted, alsoJar⟩ := List.mem_filter.mp two
  have member := same.mem_iff.mp inSorted
  -- The sort follows all tiers, those above BUILD among them.
  have edge : SortEdge library grown found scope first next := by
    obtain ⟨⟨providers, final, provided⟩, _⟩ :=
      resolve_of_sort tree begun expansion.known ordered first member
    have onward := (growing_aggregated first scope true).grows provided
    have outer := (settled_of_answer reach (steady_aggregated tree reach scope true)
      (last.known first member) provided).1
    obtain ⟨few, settled⟩ := last.stepped first member
    rw [decide_eq_false step.above] at settled
    have stepped := (expansionStep_iff_step tree reach last step.above member).mpr step
    rw [ExpansionStep, decide_eq_false step.above, settled.finds_iff] at stepped
    have more := finds_aggregated_of_tiers tree (reach.grows onward)
      (Nat.lt_of_lt_of_le (last.known first member) onward.next_le) scope.tiers_false_subset
      (settled.later onward) outer
    exact ⟨member, same.mem_iff.mp alsoSorted, .inl ⟨providers, final, provided, more stepped⟩⟩
  have inside : found ⊆ members := fun other among => listed other
    ((mem_expansion_iff tree reach (Nat.lt_of_lt_of_le known grows.next_le) last).mp among)
  rcases precedes_or_returns tree begun expansion.known ordered edge with before | back
  · exact Walk.precedes_filter before alsoJar jar
  · have circle := Relation.TransGen.head' edge back
    exact absurd (Relation.TransGen.mono (fun _ _ => SortEdge.mono inside) _ _ circle)
      (straight first (inside member))

end

section
variable {other : Library} (differ : other.withoutBuild = library.withoutBuild)
  (also : other.arena.IsTree) {left right last : Registry} {twin : ResourceId}
  {others : List ResourceId}
include differ also

/-- Where libraries differ in BUILD includes alone, classpaths show the same. -/
theorem map_perm_of_classpath {β : Type} (shown : Node → β)
    (common : ∀ {rel : ResourceId → ResourceId → Prop} {a b : Node}, a.Alike rel b →
      shown a = shown b)
    (same : ∀ node : Node, shown node.withoutBuild = shown node)
    (reaches : Reached other right) (place : SamePlace library registry right id twin)
    (given : (classpath id scope).answer library registry = (.ok ids, grown))
    (asked : (classpath twin scope).answer other right = (.ok others, last)) :
    (ids.map fun id => shown (library.node grown id)).Perm
      (others.map fun id => shown (other.node last id)) := by
  have grows := Library.grows_eq_of_withoutBuild differ
  let world : World library := ⟨registry, right, reached, by rwa [Reached, ← grows]⟩
  have here : world.Same id twin := place
  have known : twin < right.next other := by
    rw [Library.next_eq_of_withoutBuild differ]
    exact here.lt_next.2
  obtain ⟨found, middle, sorted, first, _, ordered, same', rfl⟩ :=
    classpath_cases tree reached here.lt_next.1 given
  obtain ⟨again, late, resorted, second, _, reordered, alike, rfl⟩ :=
    classpath_cases also reaches known asked
  -- Both are found in one library, and compared there.
  rw [(ignoring_aggregatedProviders twin scope).answer_eq differ] at second
  obtain ⟨later, since, rfl, rfl, both⟩ := related_of_agree
    (agree_aggregatedProviders tree (World.Later.refl world) (.inl here) scope true false)
    first second
  have onward := (growing_sort found scope false).grows ordered
  have behind := (growing_sort again scope false).grows reordered
  rw [grows] at behind
  let final : World library :=
    ⟨grown, last, later.leftReached.grows onward, later.rightReached.grows behind⟩
  have rest : later.Later final := ⟨onward, behind⟩
  have related : List.Forall₂ (world.Near final) found again :=
    both.imp fun _ _ => World.lasting_near world rest
  have nodes : ∀ x y, world.Near final x y → (library.node grown x).Alike final.Same
      (library.node last y) := fun x y near => near.alike tree (since.trans rest)
  have kept : List.Forall₂ (world.Near final)
      (found.filter fun id => (library.node grown id).produces classpathType)
      (again.filter fun id => (other.node last id).produces classpathType) := by
    refine forall₂_filter (fun x y near => ?_) related
    rw [Library.shown_eq_of_withoutBuild differ (·.produces classpathType)
      (·.produces_withoutBuild classpathType), (nodes x y near).produces]
  have equal : (found.filter fun id => (library.node grown id).produces classpathType).map
      (fun id => shown (library.node grown id)) =
        (again.filter fun id => (other.node last id).produces classpathType).map
          fun id => shown (other.node last id) := by
    rw [← List.forall₂_eq_eq_eq]
    refine List.rel_map (fun x y near => ?_) kept
    rw [Library.shown_eq_of_withoutBuild differ shown same]
    exact common (nodes x y near)
  exact ((same'.filter _).map _).trans (equal ▸ ((alike.filter _).map _).symm)

end

end Query

namespace Library

/-- A classpath lists, each once, the jars that the resource reaches along RUNTIME and at TEST along
TEST, too. It shows the same paths and versions in every library that differs in BUILD includes
alone. If the resources that were sorted do not need each other in a circle, each stands behind
those that it needs directly. -/
theorem classpath_of_build {settings : Settings} {host : Host} {load : ImportLoader}
    {catalog : Catalog} {library : Library}
    (built : build settings host load catalog = .ok library) (earlier : List Request)
    (id : ResourceId) (known : id < library.frozen.size + (library.after earlier).nodes.size)
    (scope : Scope) {ids : List ResourceId} {grown : Registry}
    (given : (Query.classpath id scope).answer library (library.after earlier) =
      (.ok ids, grown)) :
    let step := ClasspathStep library grown scope
    let shown := fun (nodes : ResourceId → Node) id => ((nodes id).path, (nodes id).version)
    ids.Nodup ∧
    (∀ found, found ∈ ids ↔
      (library.node grown found).produces "jar" = true ∧ Relation.TransGen step id found) ∧
    (∀ otherSettings otherTimestamp otherLoad edited other,
      build otherSettings otherTimestamp otherLoad edited = .ok other →
      other.withoutBuild = library.withoutBuild → ∀ session twin,
        SamePlace library (library.after earlier) (other.after session) id twin →
        ∀ others last,
          (Query.classpath twin scope).answer other (other.after session) = (.ok others, last) →
          (ids.map (shown (library.node grown))).Perm (others.map (shown (other.node last)))) ∧
    (∀ members, (∀ found, found ∈ members ↔ Relation.TransGen step id found) →
      (∀ found ∈ members, ¬Relation.TransGen (SortEdge library grown members scope) found found) →
      ∀ first ∈ ids, ∀ next ∈ ids, step first next → Walk.Precedes ids next first) := by
  intro step shown
  have tree := isTree_of_build built
  have reached := reached_after library earlier
  obtain ⟨single, listed⟩ := Query.mem_of_classpath tree reached known given
  refine ⟨single, listed, ?alike, ?order⟩
  case alike =>
    intro _ _ _ _ other rebuilt differ session twin place others last asked
    exact Query.map_perm_of_classpath tree reached differ (isTree_of_build rebuilt)
      (fun node => (node.path, node.version)) (fun alike => by rw [alike.path, alike.version])
      (fun _ => rfl) (reached_after other session) place given asked
  case order =>
    intro members reach straight first one next two along
    exact Query.precedes_of_classpath tree reached known given (fun found => (reach found).mpr)
      straight one two along

def bench (edit : Declaration → Declaration) : Catalog :=
  let jar := fun name => (Declaration.resource name).withProduct (.ofId "jar")
  Catalog.empty.withResource (((((Declaration.module "shop").withNested
    ((Declaration.resource "app").withInclude .runtime (.of .key "core"))).withNested
    (edit ((jar "core").withInclude .runtime (.of .key "base")))).withNested
    (jar "base")).withNested (jar "generator"))

theorem classpath_of_build_bench :
    ∃ library other,
      build (.ofRoot ⟨"/"⟩) "now" .none
        (bench (·.withInclude .build (.of .key "generator"))) = .ok library ∧
      build (.ofRoot ⟨"/"⟩) "now" .none (bench id) = .ok other ∧
      other.withoutBuild = library.withoutBuild ∧
      (Query.classpath 2 .runtime).answer library (library.after []) = (.ok [4, 3], .empty) ∧
      (Query.classpath 2 .runtime).answer other (other.after []) = (.ok [4, 3], .empty) ∧
      [4, 3].Nodup ∧
      (library.node .empty 5).produces "jar" = true ∧
      ¬Relation.TransGen (ClasspathStep library .empty .runtime) 2 5 ∧
      ([4, 3].map fun id => ((library.node .empty id).path, (library.node .empty id).version)).Perm
        ([4, 3].map fun id => ((other.node .empty id).path, (other.node .empty id).version)) ∧
      Walk.Precedes [4, 3] 4 3 := by
  obtain ⟨library, built, size, jar, plain, given, expanded, core, all, none⟩ : ∃ library,
      build (.ofRoot ⟨"/"⟩) "now" .none
        (bench (·.withInclude .build (.of .key "generator"))) = .ok library ∧
      library.frozen.size = 6 ∧ (library.node .empty 5).produces "jar" = true ∧
      (∀ id ∈ [4, 3], (library.node .empty id).isModule = false) ∧
      (Query.classpath 2 .runtime).answer library .empty = (.ok [4, 3], .empty) ∧
      (Query.aggregatedProviders 2 .runtime true false).answer library .empty =
        (.ok [4, 3], .empty) ∧
      (Query.aggregated 3 .runtime false).answer library .empty = (.ok [4], .empty) ∧
      (Query.aggregated 3 .runtime true).answer library .empty = (.ok [5, 4], .empty) ∧
      (Query.aggregated 4 .runtime true).answer library .empty = (.ok [], .empty) := by
    refine ⟨_, rfl, rfl, by decide +kernel, by decide +kernel, ?_, ?_, ?_, ?_, ?_⟩ <;>
      exact Query.answer_of_shown (by decide +kernel)
  obtain ⟨other, rebuilt, again⟩ : ∃ other, build (.ofRoot ⟨"/"⟩) "now" .none (bench id) =
      .ok other ∧ (Query.classpath 2 .runtime).answer other .empty = (.ok [4, 3], .empty) :=
    ⟨_, rfl, Query.answer_of_shown (by decide +kernel)⟩
  have differ : other.withoutBuild = library.withoutBuild := by
    refine withoutBuild_eq_of_build built rebuilt rfl fun imported others one two => ?_
    cases one
    cases two
    rfl
  have frozen : 2 < library.frozen.size := by
    rw [size]
    decide
  have known : 2 < library.frozen.size + (library.after []).nodes.size :=
    Nat.lt_add_right _ frozen
  obtain ⟨single, listed, alike, order⟩ := classpath_of_build built [] 2 known .runtime given
  have tree := isTree_of_build built
  have reached := reached_after library []
  have expansion : Expansion library .empty .runtime (Query.aggregated 2 .runtime false) [4, 3] :=
    Query.expansion_of_expanded tree reached (Query.steady_aggregated tree reached .runtime false)
      known expanded
  have step : ClasspathStep library .empty .runtime 3 4 := by
    refine (Query.expansionStep_iff_step tree reached expansion (by decide) (by decide)).mp ?_
    exact ⟨[4], .empty, core, by decide⟩
  -- The core needs the base, and nothing else is needed by what is sorted.
  have edge : ∀ {first next}, SortEdge library .empty [4, 3] .runtime first next →
      first = 3 ∧ next = 4 := by
    rintro first next ⟨member, listed, ⟨providers, grown, found, inside⟩ | ⟨module, _⟩⟩
    · simp only [List.mem_cons, List.not_mem_nil, or_false] at member
      rcases member with rfl | rfl
      · cases none.symm.trans found
        cases inside
      · cases all.symm.trans found
        simp only [List.mem_cons, List.not_mem_nil, or_false] at inside
        rcases inside with rfl | rfl
        · exact absurd listed (by decide)
        · exact ⟨rfl, rfl⟩
    · rw [plain first member] at module
      cases module
  refine ⟨library, other, built, rebuilt, differ, given, again, single, jar, ?_, ?_, ?_⟩
  · intro way
    exact absurd ((listed 5).mpr ⟨jar, way⟩) (by decide)
  · exact alike _ _ _ _ other rebuilt differ [] 2 (.inl ⟨rfl, frozen⟩) [4, 3] .empty again
  · refine order [4, 3] (fun found => Query.mem_expansion_iff tree reached known expansion) ?_
      3 (by decide) 4 (by decide) step
    intro found member circle
    obtain ⟨_, first, _⟩ := Relation.TransGen.head'_iff.mp circle
    obtain ⟨_, _, last⟩ := Relation.TransGen.tail'_iff.mp circle
    have := (edge first).1.symm.trans (edge last).2
    contradiction

end Library
end ResourceLibrary
