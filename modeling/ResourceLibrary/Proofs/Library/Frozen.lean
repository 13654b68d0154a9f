import ResourceLibrary.Library.Building
import ResourceLibrary.Proofs.Arena.Descent

/-!
The frozen nodes of a library. Main statement: they form a tree, paths tell its nodes apart, and
parent links, paths and references agree on what lies below what.
-/

namespace ResourceLibrary

def ResourcePath.relativeTo (path base : ResourcePath) : ResourcePath :=
  ⟨path.segments.drop base.length⟩

namespace Library

def arena (library : Library) : Arena := ⟨root, library.frozen⟩

theorem grown_of_build {settings : Settings} {host : Host} {load : ImportLoader}
    {catalog : Catalog} {library : Library}
    (built : build settings host load catalog = .ok library) :
    Arena.Grown library.ground (.start library.ground root) library.arena := by
  obtain ⟨imported, _, rest⟩ := bind_eq_ok_iff.mp built
  obtain ⟨arena, grown, same⟩ := bind_eq_ok_iff.mp rest
  cases same
  have steps := Arena.grown_of_addAll _ grown
  have base : arena.base = root := Arena.base_of_grown steps
  cases arena
  cases base
  exact steps

theorem isTree_of_build {settings : Settings} {host : Host} {load : ImportLoader}
    {catalog : Catalog} {library : Library}
    (built : build settings host load catalog = .ok library) : library.arena.IsTree :=
  (Arena.isTree_start _ _).grown (grown_of_build built)

theorem node?_arena (library : Library) (id : ResourceId) :
    library.arena.node? id = library.frozen[id]? := by
  simp [arena, Arena.node?, root]

theorem node_of_node? {library : Library} {id : ResourceId} {node : Node}
    (found : library.arena.node? id = some node) (registry : Registry) :
    library.node registry id = node := by
  rw [node?_arena] at found
  obtain ⟨inside, rfl⟩ := Array.getElem?_eq_some_iff.mp found
  simp [Library.node, inside]

theorem node?_of_lt {library : Library} {id : ResourceId} (inside : id < library.frozen.size)
    (registry : Registry) : library.arena.node? id = some (library.node registry id) := by
  rw [node?_arena, Array.getElem?_eq_getElem inside]
  simp [Library.node, inside]

theorem node_eq_of_lt {library : Library} {id : ResourceId} (frozen : id < library.frozen.size)
    (first second : Registry) : library.node first id = library.node second id :=
  node_of_node? (node?_of_lt frozen second) first

theorem lt_of_node? {library : Library} {id : ResourceId} {node : Node}
    (found : library.arena.node? id = some node) : id < library.frozen.size := by
  rw [node?_arena] at found
  exact (Array.getElem?_eq_some_iff.mp found).1

section
variable {library : Library} (tree : library.arena.IsTree) (registry : Registry)
include tree

theorem size_pos_of_isTree : root < library.frozen.size := by
  obtain ⟨top, here, _⟩ := tree.top
  exact lt_of_node? here

theorem top_root : (library.node registry root).Top := by
  obtain ⟨top, here, isTop⟩ := tree.top
  rw [← node_of_node? here registry] at isTop
  exact isTop

theorem undeclared_root : (library.node registry root).header = none :=
  (top_root tree registry).header

theorem atOrBelow_iff_startsWith {outer inner : ResourceId} (ho : outer < library.frozen.size)
    (hi : inner < library.frozen.size) :
    AtOrBelow (library.node registry) outer inner ↔
      (library.node registry inner).path.startsWith (library.node registry outer).path = true := by
  rw [ResourcePath.startsWith_iff]
  exact tree.atOrBelow_iff_prefix (node_of_node? · registry) (node?_of_lt ho registry)
    (node?_of_lt hi registry)

theorem resolve_relativeTo {start inner : ResourceId} (hs : start < library.frozen.size)
    (hi : inner < library.frozen.size) (below : AtOrBelow (library.node registry) start inner)
    (strictly : inner ≠ start) :
    resolve (library.node registry) start
      ((library.node registry inner).path.relativeTo (library.node registry start).path).text =
        .ok inner := by
  have here := node?_of_lt hs registry
  have there := node?_of_lt hi registry
  rw [atOrBelow_iff_startsWith tree registry hs hi, ResourcePath.startsWith_iff] at below
  obtain ⟨names, path⟩ := below
  have rest : (library.node registry inner).path.relativeTo (library.node registry start).path =
      ⟨names⟩ := by
    rw [ResourcePath.relativeTo, ← path, ResourcePath.length, List.drop_left]
  rw [rest]
  refine tree.resolve_relative (node_of_node? · registry) here there ?_ path.symm
  rintro rfl
  rw [List.append_nil] at path
  exact strictly (tree.path_injective there here (ResourcePath.ext path.symm))

theorem resolve_path {id : ResourceId} (frozen : id < library.frozen.size) (away : id ≠ root) :
    resolve (library.node registry) root (library.node registry id).path.text = .ok id := by
  have top := (top_root tree registry).path
  have below : AtOrBelow (library.node registry) root id := by
    rw [atOrBelow_iff_startsWith tree registry (size_pos_of_isTree tree) frozen, top,
      ResourcePath.startsWith_iff]
    exact List.nil_prefix
  have found := resolve_relativeTo tree registry (size_pos_of_isTree tree) frozen below away
  rwa [top] at found

end

/-- The frozen nodes of a library that could be built form a tree, and what lies below what is told
alike by parents, by paths and by references. -/
theorem tree_of_build {settings : Settings} {host : Host} {load : ImportLoader}
    {catalog : Catalog} {library : Library}
    (built : build settings host load catalog = .ok library) (registry : Registry) :
    let nodes := library.node registry
    let frozen := library.frozen.size
    (∀ id < frozen, (nodes id).id = id) ∧
    (0 < frozen ∧ (nodes 0).Top) ∧
    (∀ id < frozen, id ≠ 0 → ∃ above < id, (nodes above).Joined (nodes id)) ∧
    (∀ id < frozen, ∀ name child, (nodes id).child? name = some child →
      child < frozen ∧ (nodes id).isModule = true ∧ (nodes child).parent = some id ∧
        (nodes child).name = name) ∧
    (∀ id < frozen, ∀ other < frozen, (nodes id).path = (nodes other).path → id = other) ∧
    (∀ id < frozen, (nodes id).isProject = true → (nodes id).basedir.isSome = true) ∧
    (∀ a < frozen, ∀ n < frozen,
      (AtOrBelow nodes a n ↔ (nodes n).path.startsWith (nodes a).path = true) ∧
      (liesIn nodes a (nodes n) = true ↔ AtOrBelow nodes a n)) ∧
    (∀ a < frozen, ∀ reference found, resolve nodes a reference = .ok found →
      found < frozen ∧ ∃ path, ResourcePath.parse reference = .ok path ∧
        (nodes found).path.segments = (nodes a).path.segments ++ path.segments) ∧
    (∀ a < frozen, ∀ n < frozen, AtOrBelow nodes a n → n ≠ a →
      resolve nodes a ((nodes n).path.relativeTo (nodes a).path).text = .ok n) := by
  intro nodes frozen
  have tree := isTree_of_build built
  have known : ∀ {id}, id < frozen → library.arena.node? id = some (nodes id) :=
    fun inside => node?_of_lt inside registry
  have agree : ∀ {id node}, library.arena.node? id = some node → nodes id = node :=
    fun found => node_of_node? found registry
  refine ⟨?own, ⟨size_pos_of_isTree tree, ?top⟩, ?above, ?child, ?path, ?placed, ?below, ?resolved,
    ?found⟩
  case own =>
    intro id inside
    exact tree.own (known inside)
  case top =>
    obtain ⟨top, here, isTop⟩ := tree.top
    rw [← agree here] at isTop
    exact isTop
  case above =>
    intro id inside away
    obtain ⟨above, there, joined⟩ := tree.above (known inside) away
    have lower := joined.later
    rw [tree.own (known inside)] at lower
    refine ⟨above.id, lower, ?_⟩
    rw [agree there]
    exact joined
  case child =>
    intro id inside name child below
    obtain ⟨inner, there, up, named⟩ := tree.child (known inside) below
    rw [agree there]
    exact ⟨lt_of_node? there, Node.isModule_of_child? below, up, named⟩
  case path =>
    intro id inside other alsoInside same
    exact tree.path_injective (known inside) (known alsoInside) same
  case placed =>
    intro id inside project
    exact tree.placed (known inside) project
  case below =>
    intro a ha n hn
    exact ⟨atOrBelow_iff_startsWith tree registry ha hn, tree.liesIn_iff agree (known hn)⟩
  case resolved =>
    intro a ha reference found done
    obtain ⟨path, n, read, there, segments⟩ := tree.path_of_resolve agree (known ha) done
    refine ⟨lt_of_node? there, path, read, ?_⟩
    rw [agree there]
    exact segments
  case found =>
    intro a ha n hn below strictly
    exact resolve_relativeTo tree registry ha hn below strictly

def tiny : Catalog :=
  Catalog.empty.withResource ((Declaration.module "tools").withNested (.resource "editor"))

theorem tree_of_build_tiny :
    ∃ library, build (.ofRoot ⟨"/"⟩) "now" .none tiny = .ok library ∧ library.frozen.size = 3 ∧
      (library.node .empty 0).Top ∧ (library.node .empty 2).name = "editor" ∧
      ∃ above < 2, (library.node .empty above).Joined (library.node .empty 2) := by
  obtain ⟨library, built, size, name⟩ : ∃ library,
      build (.ofRoot ⟨"/"⟩) "now" .none tiny = .ok library ∧ library.frozen.size = 3 ∧
      (library.node .empty 2).name = "editor" := ⟨_, rfl, rfl, rfl⟩
  obtain ⟨_, ⟨_, top⟩, above, _⟩ := tree_of_build built .empty
  refine ⟨library, built, size, top, name, above 2 ?_ (by decide)⟩
  omega

end Library
end ResourceLibrary
