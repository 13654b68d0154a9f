import ResourceLibrary.Proofs.Library.Always

/-!
Modules in dependency order. Main statement: a module relies on every module outside it that holds a
named provider of a plain resource in it, however deep, so a strict sort puts that module first; and
it puts a named module before those around it.
-/

namespace ResourceLibrary
open Registry (Grows Reached)

namespace Library
variable {library : Library} {registry : Registry} {id inner outer : ResourceId}

section
variable (tree : library.arena.IsTree)
include tree

theorem startsWith_eq_false (outside : outer < library.frozen.size)
    (inside : inner < library.frozen.size)
    (apart : ¬AtOrBelow (library.node registry) outer inner) :
    (library.node registry inner).path.startsWith (library.node registry outer).path = false := by
  rwa [atOrBelow_iff_startsWith tree registry outside inside, Bool.not_eq_true] at apart

theorem lt_frozen_of_atOrBelow (frozen : inner < library.frozen.size)
    (below : AtOrBelow (library.node registry) outer inner) : outer < library.frozen.size := by
  obtain ⟨_, there, _⟩ := tree.prefix_of_atOrBelow (node_of_node? · registry)
    (node?_of_lt frozen registry) below
  exact lt_of_node? there

theorem atOrBelow_any (frozen : inner < library.frozen.size)
    (below : AtOrBelow (library.node registry) outer inner) (other : Registry) :
    AtOrBelow (library.node other) outer inner := by
  have outside := lt_frozen_of_atOrBelow tree frozen below
  rw [atOrBelow_iff_startsWith tree registry outside frozen] at below
  rw [atOrBelow_iff_startsWith tree other outside frozen, node_eq_of_lt frozen other registry,
    node_eq_of_lt outside other registry]
  exact below

theorem eq_of_atOrBelow (frozen : inner < library.frozen.size)
    (below : AtOrBelow (library.node registry) outer inner)
    (above : AtOrBelow (library.node registry) inner outer) : inner = outer := by
  have outside := lt_frozen_of_atOrBelow tree frozen below
  rw [atOrBelow_iff_startsWith tree registry outside frozen, ResourcePath.startsWith_iff] at below
  rw [atOrBelow_iff_startsWith tree registry frozen outside, ResourcePath.startsWith_iff] at above
  have same := ResourcePath.ext (above.eq_of_length_le below.length_le)
  exact tree.path_injective (node?_of_lt frozen registry) (node?_of_lt outside registry) same

theorem startsWith_eq_false_of_strict (frozen : inner < library.frozen.size)
    (below : AtOrBelow (library.node registry) outer inner) (strictly : inner ≠ outer) :
    (library.node registry outer).path.startsWith (library.node registry inner).path = false :=
  startsWith_eq_false tree frozen (lt_frozen_of_atOrBelow tree frozen below) fun back =>
    strictly (eq_of_atOrBelow tree frozen below back)

theorem atOrBelow_or_of_atOrBelow {other : ResourceId} (frozen : inner < library.frozen.size)
    (first : AtOrBelow (library.node registry) outer inner)
    (second : AtOrBelow (library.node registry) other inner) :
    AtOrBelow (library.node registry) outer other ∨
      AtOrBelow (library.node registry) other outer := by
  have left := lt_frozen_of_atOrBelow tree frozen first
  have right := lt_frozen_of_atOrBelow tree frozen second
  rw [atOrBelow_iff_startsWith tree registry left frozen, ResourcePath.startsWith_iff] at first
  rw [atOrBelow_iff_startsWith tree registry right frozen, ResourcePath.startsWith_iff] at second
  rw [atOrBelow_iff_startsWith tree registry left right, ResourcePath.startsWith_iff,
    atOrBelow_iff_startsWith tree registry right left, ResourcePath.startsWith_iff]
  exact List.prefix_or_prefix_of_prefix first second

end
end Library

namespace Query
variable {library : Library} (tree : library.arena.IsTree)
include tree

theorem lt_frozen_of_finds {registry : Registry} (reached : Reached library registry)
    {id next : ResourceId} (known : id < registry.next library)
    (plain : (library.node registry id).isModule = false) {scope : Scope} {withBuild : Bool}
    (finds : Finds library registry (aggregated id scope withBuild) next) :
    id < library.frozen.size := by
  refine Nat.lt_of_not_le fun behind => ?_
  obtain ⟨urn, level, inside⟩ := reached.cover behind known
  have bare := (World.synthetic_of_within reached inside).bare
  obtain ⟨ids, grown, given, member⟩ := finds
  have since := (growing_aggregated id scope withBuild).grows given
  obtain ⟨tier, _, others, last, asked, provided⟩ :=
    ((finds_aggregated_iff tree reached known given).2 next).mp member
  have here := since.node known
  rw [← here] at bare plain
  obtain ⟨direct, middle, stated, rest⟩ := localProviders_cases asked
  rw [answer_declared_of_bare bare plain] at stated
  cases stated
  simp only [plain, Bool.and_false, Bool.false_and, Bool.false_eq_true, if_false] at rest
  rw [rest.1] at provided
  cases provided

theorem always_aggregatedProviders {first grown : Registry} (reached : Reached library first)
    {id found : ResourceId} (frozen : id < library.frozen.size)
    (inside : found < library.frozen.size) {scope : Scope} {expand withBuild : Bool}
    {ids : List ResourceId}
    (given : (aggregatedProviders id scope expand withBuild).answer library first =
      (.ok ids, grown)) (member : found ∈ ids) :
    Always library .empty (aggregatedProviders id scope expand withBuild) found := by
  intro registry others last since asked
  let world : World library := ⟨first, registry, reached, since⟩
  obtain ⟨later, after, _, _, both⟩ := related_of_agree
    (agree_aggregatedProviders tree (World.Later.refl world) (.inl (world.same_of_lt frozen)) scope
      expand withBuild) given asked
  obtain ⟨other, among, near⟩ := exists_mem_of_forall₂ both member
  rw [(near.same after).eq_of_lt inside]
  exact among

end Query

/-- A plain resource at any depth in a module has a named provider in a module that lies apart. -/
def NeedsModule (library : Library) (module other : ResourceId) : Prop :=
  ∃ session resource sorted ids grown provider,
    let nodes := library.node grown
    resource < library.frozen.size + (library.after session).nodes.size ∧
    (Query.allProviders resource .test true sorted).answer library (library.after session) =
      (.ok ids, grown) ∧
    (nodes resource).isModule = false ∧ (nodes module).isModule = true ∧
    AtOrBelow nodes module resource ∧ provider ∈ ids ∧ (nodes provider).isAnonymous = false ∧
    (nodes provider).parent = some other ∧ ¬AtOrBelow nodes module other ∧
    ¬AtOrBelow nodes other module

namespace Query
variable {library : Library} (tree : library.arena.IsTree) (declared : library.arena.Declared)
  (named : ∀ id < library.frozen.size, (library.node .empty id).isAnonymous = false)
  {module other place inner : ResourceId}

theorem known_of_frozen {id : ResourceId} (frozen : id < library.frozen.size) :
    id < Registry.empty.next library :=
  Nat.lt_add_right _ frozen

include tree named

theorem way_to_module (frozen : inner < library.frozen.size)
    (below : AtOrBelow (library.node .empty) module inner)
    (isModule : (library.node .empty inner).isModule = true) (scope : Scope) :
    Relation.ReflTransGen (fun node next => Always library .empty
      (moduleStep module (library.node .empty module).path scope node) next) module inner := by
  induction below using Relation.ReflTransGen.head_induction_on with
  | refl => exact .refl
  | @head node above up rest ih =>
    have joined := (joined_of_parent tree .refl up).2
    have outside := Library.lt_frozen_of_atOrBelow tree frozen (.single up)
    refine (ih outside joined.isModule).tail ?_
    refine always_moduleStep_child (known_of_frozen outside) (named above outside) ?_
      joined.isModule ((mem_children_iff tree .refl (known_of_frozen outside)).mpr up)
      (known_of_frozen frozen) isModule
    exact Library.startsWith_eq_false_of_strict tree outside rest

theorem always_providerModules_inner (frozen : inner < library.frozen.size)
    (below : AtOrBelow (library.node .empty) module inner) (strictly : inner ≠ module)
    (isModule : (library.node .empty inner).isModule = true) (scope : Scope) :
    Always library .empty (providerModules module scope) inner := by
  have start := Library.lt_frozen_of_atOrBelow tree frozen below
  exact always_providerModules tree .refl (known_of_frozen start) (known_of_frozen frozen)
    (way_to_module tree named frozen below isModule scope) isModule (named inner frozen)
    (Library.startsWith_eq_false_of_strict tree frozen below strictly)

omit named in
theorem atOrBelow_of_isRoot (frozen : place < library.frozen.size)
    (root : (library.node .empty place).isRoot = true) (inside : inner < library.frozen.size) :
    AtOrBelow (library.node .empty) place inner := by
  have here := Library.node?_of_lt frozen .empty
  have base : place = library.arena.base := by
    refine Decidable.byContradiction fun away => ?_
    obtain ⟨above, _, joined⟩ := tree.above here away
    rw [joined.inner] at root
    cases root
  have path := (tree.path_eq_root_iff here).mpr base
  rw [Library.atOrBelow_iff_startsWith tree .empty frozen inside, ResourcePath.startsWith_iff, path]
  exact List.nil_prefix

include declared

/-- The module around a plain resource asks at BUILD for the modules around its needs. -/
theorem always_providerModules_outer {resource provider : ResourceId}
    (below : AtOrBelow (library.node .empty) module place)
    (up : (library.node .empty resource).parent = some place)
    (plain : (library.node .empty resource).isModule = false)
    (needs : Always library .empty (needs resource) provider)
    (isNamed : (library.node .empty provider).isAnonymous = false)
    (around : (library.node .empty provider).parent = some other)
    (outside : ¬AtOrBelow (library.node .empty) module other)
    (apart : ¬AtOrBelow (library.node .empty) other module) :
    Always library .empty (providerModules module .test) other := by
  have within : resource < library.frozen.size := Library.known_of_parent up
  have provided : provider < library.frozen.size := Library.known_of_parent around
  have inside := Library.lt_frozen_of_atOrBelow tree within (.single up)
  have beyond := Library.lt_frozen_of_atOrBelow tree provided (.single around)
  have start := Library.lt_frozen_of_atOrBelow tree inside below
  have isPlace := (joined_of_parent tree .refl up).2.isModule
  have isOther := (joined_of_parent tree .refl around).2.isModule
  have notRoot : (library.node .empty other).isRoot = false := by
    rw [Bool.eq_false_iff]
    exact fun root => apart (atOrBelow_of_isRoot tree beyond root start)
  have placed : (library.node .empty place).isRoot = false := by
    rw [Bool.eq_false_iff]
    intro root
    exact outside (.trans (atOrBelow_of_isRoot tree inside root beyond) below)
  have header := Library.header_of_not_isRoot declared .refl (known_of_frozen inside) placed
  have outer : Always library .empty (outerModules (library.node .empty place) provider) other := by
    refine always_outerModules tree .refl isNamed around notRoot ?_ ?_
    · exact Library.startsWith_eq_false tree inside beyond fun lower => outside (.trans lower below)
    · refine Library.startsWith_eq_false tree beyond inside fun upper => ?_
      rcases Library.atOrBelow_or_of_atOrBelow tree inside below upper with lower | higher
      · exact outside lower
      · exact apart higher
  have needed : Always library .empty (neededModules (library.node .empty place)) other :=
    always_neededModules ((mem_children_iff tree .refl (known_of_frozen inside)).mpr up)
      (known_of_frozen within) plain needs outer
  have tier := always_localProviders_build (known_of_frozen inside) isPlace header needed
  have all : Always library .empty (aggregated place .test true) other :=
    always_gather (growing_localProviders place · none) (by decide) tier
  have way := way_to_module tree named inside below isPlace .test
  have step := always_moduleStep_provider (known_of_frozen inside) (named place inside)
    (Library.startsWith_eq_false_of_strict tree inside below) isPlace all
  exact always_providerModules tree .refl (known_of_frozen start) (known_of_frozen beyond)
    (way.tail step) isOther (named other beyond)
    (Library.startsWith_eq_false tree beyond start apart)

theorem always_of_needsModule (needs : NeedsModule library module other) :
    module < library.frozen.size ∧ (library.node .empty module).isModule = true ∧
      Always library .empty (providerModules module .test) other := by
  obtain ⟨session, resource, sorted, ids, grown, provider, known, given, plain, isModule, below,
    member, isNamed, around, outside, apart⟩ := needs
  have reached := library.reached_after session
  have since := (growing_allProviders resource .test true sorted).grows given
  have after := reached.grows since
  obtain ⟨expansion, found, middle, asked, same⟩ :=
    expansion_of_answer tree reached (steady_aggregated tree reached .test true) known given
  obtain ⟨first, finds, _⟩ := (expansion.mem_iff provider).mp member
  have frozen := lt_frozen_of_finds tree after (Nat.lt_of_lt_of_le known since.next_le) plain finds
  have provided := lt_frozen_of_named tree after isNamed around
  have start := Library.lt_frozen_of_atOrBelow tree frozen below
  have whole : (aggregatedProviders resource .test true true).answer library
      (library.after session) = (.ok found, middle) := asked
  have always := always_aggregatedProviders tree reached frozen provided whole
    (same.mem_iff.mp member)
  have nowhere : ∀ registry, (library.node registry resource).isModule = false := by
    intro registry
    rw [Library.node_eq_of_lt frozen registry grown]
    exact plain
  rw [Library.node_eq_of_lt start grown .empty] at isModule
  rw [Library.node_eq_of_lt provided grown .empty] at isNamed around
  have beyond := Library.lt_frozen_of_atOrBelow tree provided (.single around)
  refine ⟨start, isModule, ?_⟩
  rcases Relation.ReflTransGen.cases_head (Library.atOrBelow_any tree frozen below .empty) with
    rfl | ⟨place, up, rest⟩
  · rw [nowhere] at isModule
    cases isModule
  · refine always_providerModules_outer tree declared named rest up (nowhere .empty) ?_ isNamed
      around (fun lower => outside ?_) fun higher => apart ?_
    · intro registry others last grows needed
      rw [answer_needs_of_plain fun after _ => nowhere after] at needed
      exact always registry others last grows needed
    · exact Library.atOrBelow_any tree beyond lower grown
    · exact Library.atOrBelow_any tree start higher grown

end Query

namespace Library

/-- In a library that declares no anonymous resources a module relies on the modules that its plain
resources need, and a strict sort puts these in front of it; it puts a named module, and a module
directly below another one, in front of what is around it. -/
theorem order_of_modules {settings : Settings} {host : Host} {load : ImportLoader}
    {catalog : Catalog} {library : Library}
    (built : build settings host load catalog = .ok library)
    (named : ∀ id < library.frozen.size, (library.node .empty id).isAnonymous = false) :
    (∀ module other, NeedsModule library module other → ∀ session modules grown,
      (Query.providerModules module .test).answer library (library.after session) =
        (.ok modules, grown) → other ∈ modules) ∧
    ∀ session candidates order grown,
      (∀ id ∈ candidates, id < library.frozen.size + (library.after session).nodes.size) →
      (Query.sort candidates .test true).answer library (library.after session) =
        (.ok order, grown) →
      (∀ module ∈ candidates, ∀ other ∈ candidates, NeedsModule library module other →
        Walk.Precedes order other module) ∧
      ∀ inner ∈ candidates, ∀ outer ∈ candidates,
        let nodes := library.node (library.after session)
        (nodes inner).isModule = true → AtOrBelow nodes outer inner → inner ≠ outer →
        (nodes inner).isAnonymous = false ∨
          (nodes inner).parent = some outer ∧ (nodes outer).isRoot = false →
        Walk.Precedes order inner outer := by
  have tree := isTree_of_build built
  have declared := declared_of_build built
  refine ⟨?relied, fun session candidates order grown known given => ⟨?needed, ?around⟩⟩
  case relied =>
    intro module other needs session modules grown given
    obtain ⟨_, _, always⟩ := Query.always_of_needsModule tree declared named needs
    exact always _ _ _ (library.reached_after session) given
  case needed =>
    intro module member other also needs
    have reached := library.reached_after session
    obtain ⟨frozen, isModule, always⟩ := Query.always_of_needsModule tree declared named needs
    rw [node_eq_of_lt frozen .empty (library.after session)] at isModule
    exact Query.precedes_of_always tree reached known given member
      (Query.always_sortEdges_module also (known module member) isModule (always.later reached))
  case around =>
    intro inner member outer also nodes isModule below strictly which
    have reached := library.reached_after session
    apply Query.precedes_of_always tree reached known given also
    obtain ⟨_, up, _⟩ := (Relation.ReflTransGen.cases_head below).resolve_left strictly
    obtain ⟨_, _, down⟩ := (Relation.ReflTransGen.cases_tail below).resolve_left (Ne.symm strictly)
    rcases which with isNamed | ⟨direct, notRoot⟩
    · have frozen := lt_frozen_of_named tree reached isNamed up
      have isOuter := (joined_of_parent tree reached down).2.isModule
      have same : nodes inner = library.node .empty inner := node_eq_of_lt frozen _ _
      rw [same] at isModule
      have always := Query.always_providerModules_inner tree named frozen
        (atOrBelow_any tree frozen below .empty) strictly isModule .test
      exact Query.always_sortEdges_module member (known outer also) isOuter (always.later reached)
    · have header := header_of_not_isRoot declared reached (known outer also) notRoot
      have child := (mem_children_iff tree reached (known outer also)).mpr direct
      have tier := Query.always_localProviders
        (Query.always_declared_child (known outer also) header child)
      exact Query.always_sortEdges_provider member
        (Query.always_gather (Query.growing_localProviders outer · none) (by decide) tier)

def shop : Catalog :=
  (Catalog.empty.withResource ((Declaration.module "base").withNested
    (.resource "lib"))).withResource ((Declaration.module "app").withNested
    ((Declaration.resource "main").withInclude .runtime (.of .ref "base/lib")))

theorem needsModule_shop {library : Library}
    (built : build (.ofRoot ⟨"/"⟩) "now" .none shop = .ok library) :
    (∀ id < library.frozen.size, (library.node .empty id).isAnonymous = false) ∧
      NeedsModule library 3 1 := by
  have tree := isTree_of_build built
  obtain ⟨size, named, given, plain, module, up, around, app, base⟩ :
      library.frozen.size = 5 ∧
      (List.range 5).all (fun id => !(library.node .empty id).isAnonymous) = true ∧
      (Query.allProviders 4 .test true true).answer library .empty = (.ok [2], .empty) ∧
      (library.node .empty 4).isModule = false ∧ (library.node .empty 3).isModule = true ∧
      (library.node .empty 4).parent = some 3 ∧ (library.node .empty 2).parent = some 1 ∧
      (library.node .empty 3).path = ⟨["app"]⟩ ∧ (library.node .empty 1).path = ⟨["base"]⟩ := by
    cases built
    exact ⟨rfl, rfl, rfl, rfl, rfl, rfl, rfl, rfl, rfl⟩
  have named : ∀ id < library.frozen.size, (library.node .empty id).isAnonymous = false := by
    intro id inside
    have each := List.all_eq_true.mp named id (List.mem_range.mpr (size ▸ inside))
    simpa using each
  have apart : ∀ outer inner, outer < 5 → inner < 5 →
      (library.node .empty inner).path.startsWith (library.node .empty outer).path = false →
      ¬AtOrBelow (library.node .empty) outer inner := by
    intro outer inner outside inside away
    rw [atOrBelow_iff_startsWith tree .empty (size ▸ outside) (size ▸ inside), away]
    exact Bool.false_ne_true
  refine ⟨named, [], 4, true, [2], .empty, 2, ?_, given, plain, module, .single up, by simp,
    named 2 ?_, around, apart 3 1 (by decide) (by decide) ?_, apart 1 3 (by decide) (by decide) ?_⟩
  · rw [size]
    exact Nat.lt_add_right _ (by decide)
  · rw [size]
    decide
  · rw [app, base]
    decide
  · rw [app, base]
    decide

def distant : Coordinate := ⟨"artifact", "jar", "org/a/b", "x", some "1"⟩

/-- A module of a coordinate that stands two levels above another one does not follow it. -/
theorem around_before_inner_shop :
    ∃ library grown, build (.ofRoot ⟨"/"⟩) "now" .none shop = .ok library ∧
      (∀ id < library.frozen.size, (library.node .empty id).isAnonymous = false) ∧
      NeedsModule library 3 1 ∧
      (Query.sort [3, 1, 6, 8] .test true).answer library
        (library.after [.anonymous "artifact:jar:org/a/b/x#1" ∅]) = (.ok [1, 3, 6, 8], grown) ∧
      let nodes := library.node (library.after [.anonymous "artifact:jar:org/a/b/x#1" ∅])
      (nodes 6).isModule = true ∧ (nodes 8).isModule = true ∧ AtOrBelow nodes 6 8 ∧
      ¬Walk.Precedes [1, 3, 6, 8] 8 6 := by
  have read : Coordinate.parse "artifact:jar:org/a/b/x#1" = .ok distant := by cbv
  obtain ⟨library, registry, built, same, sorted, outer, inner, first, second⟩ :
      ∃ library registry, build (.ofRoot ⟨"/"⟩) "now" .none shop = .ok library ∧
        registry = Registry.empty.withBatch library "artifact:jar:org/a/b/x#1" distant ∅ ∧
        (Query.sort [3, 1, 6, 8] .test true).answer library registry =
          (.ok [1, 3, 6, 8], registry) ∧
        (library.node registry 6).isModule = true ∧ (library.node registry 8).isModule = true ∧
        (library.node registry 8).parent = some 7 ∧ (library.node registry 7).parent = some 6 :=
    ⟨_, _, rfl, rfl, rfl, rfl, rfl, rfl, rfl⟩
  have after := (library.after_anonymous read ∅).trans same.symm
  obtain ⟨named, needs⟩ := needsModule_shop built
  refine ⟨library, registry, built, named, needs, ?_⟩
  rw [after]
  refine ⟨sorted, outer, inner, .head first (.single second), fun before => ?_⟩
  have position := Walk.idxOf_lt_of_precedes (by decide) before
  exact absurd position (by decide)

theorem order_of_modules_shop :
    ∃ library, build (.ofRoot ⟨"/"⟩) "now" .none shop = .ok library ∧ NeedsModule library 3 1 ∧
      (Query.providerModules 3 .test).answer library (library.after []) = (.ok [1], .empty) ∧
      1 ∈ [1] ∧
      (Query.sort [0, 3, 1] .test true).answer library (library.after []) =
        (.ok [1, 3, 0], .empty) ∧
      Walk.Precedes [1, 3, 0] 1 3 ∧ Walk.Precedes [1, 3, 0] 3 0 := by
  obtain ⟨library, built, size, relied, sorted, module, named, up⟩ : ∃ library,
      build (.ofRoot ⟨"/"⟩) "now" .none shop = .ok library ∧ library.frozen.size = 5 ∧
      (Query.providerModules 3 .test).answer library .empty = (.ok [1], .empty) ∧
      (Query.sort [0, 3, 1] .test true).answer library .empty = (.ok [1, 3, 0], .empty) ∧
      (library.node .empty 3).isModule = true ∧ (library.node .empty 3).isAnonymous = false ∧
      (library.node .empty 3).parent = some 0 := ⟨_, rfl, rfl, rfl, rfl, rfl, rfl, rfl⟩
  obtain ⟨frozen, needs⟩ := needsModule_shop built
  obtain ⟨modules, order⟩ := order_of_modules built frozen
  have known : ∀ id ∈ [0, 3, 1],
      id < library.frozen.size + (library.after []).nodes.size := by
    intro id member
    rw [size]
    refine Nat.lt_add_right _ ?_
    revert id
    decide
  obtain ⟨first, second⟩ := order [] _ _ _ known sorted
  refine ⟨library, built, needs, relied, modules 3 1 needs [] _ _ relied, sorted, ?_, ?_⟩
  · exact first 3 (by simp) 1 (by simp) needs
  · exact second 3 (by simp) 0 (by simp) module (.single up) (by decide) (.inl named)

end Library
end ResourceLibrary
