import Mathlib.Logic.Relation
import ResourceLibrary.Arena.Growth
import ResourceLibrary.Proofs.Text.Segments

/-!
The nodes of an arena form a tree. One declaration entered below a node keeps the tree, so every
list of declarations does. Main statement: an arena grown from its root alone is a tree.
-/

namespace ResourceLibrary

namespace Node

@[simp] theorem id_withChild (node : Node) (name : String) (child : ResourceId) :
    (node.withChild name child).id = node.id := by
  unfold withChild
  split <;> rfl

@[simp] theorem path_withChild (node : Node) (name : String) (child : ResourceId) :
    (node.withChild name child).path = node.path := by
  unfold withChild
  split <;> rfl

@[simp] theorem parent_withChild (node : Node) (name : String) (child : ResourceId) :
    (node.withChild name child).parent = node.parent := by
  unfold withChild
  split <;> rfl

@[simp] theorem header_withChild (node : Node) (name : String) (child : ResourceId) :
    (node.withChild name child).header = node.header := by
  unfold withChild
  split <;> rfl

@[simp] theorem basedir_withChild (node : Node) (name : String) (child : ResourceId) :
    (node.withChild name child).basedir = node.basedir := by
  unfold withChild
  split <;> rfl

@[simp] theorem isRoot_withChild (node : Node) (name : String) (child : ResourceId) :
    (node.withChild name child).isRoot = node.isRoot := by
  unfold withChild
  split <;> simp_all [isRoot]

@[simp] theorem isModule_withChild (node : Node) (name : String) (child : ResourceId) :
    (node.withChild name child).isModule = node.isModule := by
  unfold withChild
  split <;> simp_all [isModule]

theorem isModule_of_child? {node : Node} {name : String} {child : ResourceId}
    (inside : node.child? name = some child) : node.isModule = true := by
  unfold child? childTable at inside
  split at inside
  · next eq => simp [isModule, eq]
  · simp at inside

structure Top (node : Node) : Prop where
  isRoot : node.isRoot = true
  isModule : node.isModule = true
  parent : node.parent = none
  header : node.header = none
  path : node.path = .root

structure Joined (above node : Node) : Prop where
  parent : node.parent = some above.id
  later : above.id < node.id
  isModule : above.isModule = true
  child : above.child? node.name = some node.id
  path : node.path = above.path.child node.name
  segment : ResourcePath.IsSegment node.name
  inner : node.isRoot = false

end Node

namespace Arena

structure IsTree (arena : Arena) : Prop where
  own : ∀ {id node}, arena.node? id = some node → node.id = id
  top : ∃ node, arena.node? arena.base = some node ∧ node.Top
  above : ∀ {id node}, arena.node? id = some node → id ≠ arena.base →
    ∃ above, arena.node? above.id = some above ∧ above.Joined node
  child : ∀ {id node name child}, arena.node? id = some node → node.child? name = some child →
    ∃ inner, arena.node? child = some inner ∧ inner.parent = some id ∧ inner.name = name
  placed : ∀ {id node}, arena.node? id = some node → node.isProject = true →
    node.basedir.isSome = true

theorem node?_eq_some_iff {arena : Arena} {id : ResourceId} {node : Node} :
    arena.node? id = some node ↔ arena.base ≤ id ∧ arena.nodes[id - arena.base]? = some node := by
  simp [node?]

theorem node?_isSome_iff {arena : Arena} {id : ResourceId} :
    (arena.node? id).isSome = true ↔ arena.base ≤ id ∧ id < arena.next := by
  unfold node? next
  by_cases reached : arena.base ≤ id
  · rw [if_pos reached, isSome_getElem?]
    grind
  · simp [reached]

theorem node_of_node? {arena : Arena} {id : ResourceId} {node : Node}
    (found : arena.node? id = some node) : arena.node id = node := by
  simp [Arena.node, found]

theorem node?_of_isModule {arena : Arena} {id : ResourceId}
    (module : (arena.node id).isModule = true) : arena.node? id = some (arena.node id) := by
  unfold Arena.node at module ⊢
  cases found : arena.node? id with
  | none => simp [found, Node.absent, Node.isModule] at module
  | some node => rfl

theorem node?_push {arena : Arena} {parent : ResourceId} {name : String} {node : Node}
    (known : (arena.node? parent).isSome = true) (id : ResourceId) :
    (arena.push parent name node).node? id =
      if id = arena.next then some node
      else if id = parent then (arena.node? parent).map (·.withChild name node.id)
      else arena.node? id := by
  obtain ⟨low, high⟩ := node?_isSome_iff.mp known
  unfold next at high ⊢
  simp only [push, node?, Array.getElem?_modify, Array.getElem?_push, low, ↓reduceIte]
  by_cases last : id = arena.base + arena.nodes.size
  · have : parent - arena.base ≠ id - arena.base := by grind
    have : id - arena.base = arena.nodes.size := by grind
    simp_all
  · by_cases same : id = parent
    · have : id - arena.base ≠ arena.nodes.size := by grind
      simp_all
    · by_cases reached : arena.base ≤ id
      · have : id - arena.base ≠ arena.nodes.size := by grind
        have : parent - arena.base ≠ id - arena.base := by grind
        simp_all
      · simp [reached, last, same]

@[simp] theorem base_push (arena : Arena) (parent : ResourceId) (name : String) (node : Node) :
    (arena.push parent name node).base = arena.base := rfl

end Arena

namespace Declaration

theorem admit_eq_ok_iff {parent : Node} {declaration : Declaration} :
    Declaration.admit parent declaration = .ok () ↔
      parent.isModule = true ∧
      (declaration.header.isModule = true ∨ declaration.nested = []) ∧
      ResourcePath.IsSegment declaration.header.name := by
  obtain ⟨header, nested⟩ := declaration
  unfold Declaration.admit ResourcePath.IsSegment
  simp only [bind, Except.bind, pure, Except.pure]
  grind

end Declaration

namespace Header

@[simp] theorem name_node (ground : Ground) (parent : Node) (id : ResourceId) (header : Header)
    (basedir : Option FilePath) : (header.node ground parent id basedir).name = header.name := by
  simp [Header.node, Node.name]

@[simp] theorem id_node (ground : Ground) (parent : Node) (id : ResourceId) (header : Header)
    (basedir : Option FilePath) : (header.node ground parent id basedir).id = id := rfl

@[simp] theorem parent_node (ground : Ground) (parent : Node) (id : ResourceId) (header : Header)
    (basedir : Option FilePath) :
    (header.node ground parent id basedir).parent = some parent.id := rfl

@[simp] theorem child?_node (ground : Ground) (parent : Node) (id : ResourceId) (header : Header)
    (basedir : Option FilePath) (name : String) :
    (header.node ground parent id basedir).child? name = none := by
  cases module : header.isModule <;> simp [Header.node, Node.child?, Node.childTable, module]

theorem isSome_of_basedir? {ground : Ground} {parent : Node} {header : Header}
    {basedir : Option FilePath} (given : header.basedir? ground parent = .ok basedir)
    (project : header.isProject = true) : basedir.isSome = true := by
  unfold basedir? at given
  split at given
  · cases given
    rfl
  · simp [project] at given

end Header

namespace Arena

theorem enter_cases {ground : Ground} {arena entered : Arena} {parent id : ResourceId}
    {header : Header} (done : arena.enter ground parent header = .ok (id, entered)) :
    ((arena.node parent).child? header.name = some id ∧ (arena.node id).isModule = true ∧
      header.isModule = true ∧
      header.agree ground (arena.node parent) (arena.node id) = .ok () ∧ entered = arena) ∨
    ((arena.node parent).child? header.name = none ∧ id = arena.next ∧
      ∃ basedir, header.basedir? ground (arena.node parent) = .ok basedir ∧
        entered = arena.push parent header.name
          (header.node ground (arena.node parent) arena.next basedir)) := by
  unfold enter at done
  simp only at done
  cases present : (arena.node parent).child? header.name with
  | some found =>
    rw [present] at done
    simp only at done
    split at done
    · next both =>
      rw [Bool.and_eq_true] at both
      cases agreed : header.agree ground (arena.node parent) (arena.node found) with
      | error failure => simp [agreed, Except.map] at done
      | ok agreement =>
        simp only [agreed, Except.map, Except.ok.injEq, Prod.mk.injEq] at done
        obtain ⟨rfl, rfl⟩ := done
        exact .inl ⟨rfl, both.1, both.2, agreed, rfl⟩
    · simp at done
  | none =>
    rw [present] at done
    simp only at done
    cases given : header.basedir? ground (arena.node parent) with
    | error failure => simp [given, Except.map] at done
    | ok basedir =>
      simp only [given, Except.map, Except.ok.injEq, Prod.mk.injEq] at done
      obtain ⟨rfl, rfl⟩ := done
      exact .inr ⟨rfl, rfl, basedir, rfl, rfl⟩

def Entered (ground : Ground) (arena entered : Arena) : Prop :=
  ∃ parent header nested id, Declaration.admit (arena.node parent) ⟨header, nested⟩ = .ok () ∧
    arena.enter ground parent header = .ok (id, entered)

def Grown (ground : Ground) : Arena → Arena → Prop := Relation.ReflTransGen (Entered ground)

theorem add_eq_ok_iff {ground : Ground} {arena grown : Arena} {parent id : ResourceId}
    {header : Header} {nested : List Declaration} :
    arena.add ground parent ⟨header, nested⟩ = .ok (id, grown) ↔
      Declaration.admit (arena.node parent) ⟨header, nested⟩ = .ok () ∧
      ∃ entered, arena.enter ground parent header = .ok (id, entered) ∧
        entered.addAll ground id nested = .ok grown := by
  rw [add]
  simp only [bind_eq_ok_iff, Except.ok.injEq, Prod.mk.injEq]
  constructor
  · rintro ⟨_, admitted, ⟨place, entered⟩, done, after, below, rfl, rfl⟩
    exact ⟨admitted, entered, done, below⟩
  · rintro ⟨admitted, entered, done, below⟩
    exact ⟨(), admitted, (id, entered), done, grown, below, rfl, rfl⟩

theorem addAll_cons_eq_ok_iff {ground : Ground} {arena grown : Arena} {parent : ResourceId}
    {declaration : Declaration} {rest : List Declaration} :
    arena.addAll ground parent (declaration :: rest) = .ok grown ↔
      ∃ id mid, arena.add ground parent declaration = .ok (id, mid) ∧
        mid.addAll ground parent rest = .ok grown := by
  rw [addAll]
  simp only [bind_eq_ok_iff, Prod.exists]

mutual

theorem grown_of_add {ground : Ground} {arena grown : Arena} {parent id : ResourceId} :
    ∀ declaration, arena.add ground parent declaration = .ok (id, grown) →
      Grown ground arena grown
  | ⟨header, nested⟩, done => by
    obtain ⟨admitted, entered, entry, below⟩ := add_eq_ok_iff.mp done
    exact .head ⟨parent, header, nested, id, admitted, entry⟩ (grown_of_addAll nested below)

theorem grown_of_addAll {ground : Ground} {arena grown : Arena} {parent : ResourceId} :
    ∀ declarations, arena.addAll ground parent declarations = .ok grown →
      Grown ground arena grown
  | [], done => by
    rw [addAll] at done
    cases done
    exact .refl
  | declaration :: rest, done => by
    obtain ⟨id, mid, first, further⟩ := addAll_cons_eq_ok_iff.mp done
    exact (grown_of_add declaration first).trans (grown_of_addAll rest further)

end

theorem base_of_grown {ground : Ground} {arena grown : Arena} (steps : Grown ground arena grown) :
    grown.base = arena.base := by
  induction steps with
  | refl => rfl
  | tail _ step ih =>
    obtain ⟨parent, header, nested, id, _, done⟩ := step
    rcases enter_cases done with ⟨_, _, _, _, rfl⟩ | ⟨_, _, basedir, _, rfl⟩
    · exact ih
    · exact ih

theorem node?_start_eq_some_iff {ground : Ground} {base id : ResourceId} {node : Node} :
    (start ground base).node? id = some node ↔ id = base ∧ node = .root base ground.properties := by
  constructor
  · intro found
    obtain ⟨low, here⟩ := node?_eq_some_iff.mp found
    obtain ⟨inside, rfl⟩ := Array.getElem?_eq_some_iff.mp here
    simp only [start, List.size_toArray, List.length_singleton] at inside low
    exact ⟨by grind, by simp [start]⟩
  · rintro ⟨rfl, rfl⟩
    simp [start, node?]

theorem isTree_start (ground : Ground) (base : ResourceId) : (start ground base).IsTree := by
  constructor
  · intro id node found
    obtain ⟨rfl, rfl⟩ := node?_start_eq_some_iff.mp found
    rfl
  · refine ⟨_, node?_start_eq_some_iff.mpr ⟨rfl, rfl⟩, ?_⟩
    constructor <;> rfl
  · intro id node found away
    exact absurd (node?_start_eq_some_iff.mp found).1 away
  · intro id node name child found inside
    obtain ⟨rfl, rfl⟩ := node?_start_eq_some_iff.mp found
    simp [Node.root, Node.child?, Node.childTable] at inside
  · intro id node found project
    obtain ⟨rfl, rfl⟩ := node?_start_eq_some_iff.mp found
    simp [Node.root, Node.isProject] at project

theorem id_lt_next {arena : Arena} {id : ResourceId} {node : Node}
    (found : arena.node? id = some node) : id < arena.next :=
  (node?_isSome_iff.mp (by rw [found]; rfl)).2

def gained (parent : ResourceId) (name : String) (child : ResourceId) (node : Node) : Node :=
  if node.id = parent then node.withChild name child else node

section
variable (parent child : ResourceId) (name : String) (node : Node)

@[simp] theorem id_gained : (gained parent name child node).id = node.id := by
  unfold gained
  split <;> simp

@[simp] theorem path_gained : (gained parent name child node).path = node.path := by
  unfold gained
  split <;> simp

@[simp] theorem name_gained : (gained parent name child node).name = node.name := by
  simp [Node.name]

@[simp] theorem parent_gained : (gained parent name child node).parent = node.parent := by
  unfold gained
  split <;> simp

@[simp] theorem header_gained : (gained parent name child node).header = node.header := by
  unfold gained
  split <;> simp

@[simp] theorem basedir_gained : (gained parent name child node).basedir = node.basedir := by
  unfold gained
  split <;> simp

@[simp] theorem isRoot_gained : (gained parent name child node).isRoot = node.isRoot := by
  unfold gained
  split <;> simp

@[simp] theorem isModule_gained : (gained parent name child node).isModule = node.isModule := by
  unfold gained
  split <;> simp

end

theorem child?_gained {node : Node} {parent child : ResourceId} {name other : String}
    (module : node.isModule = true) :
    (gained parent name child node).child? other =
      if node.id = parent ∧ other = name then some child else node.child? other := by
  unfold gained
  split
  · next here => simp [Node.child?_withChild module, here]
  · next away => simp [away]

theorem joined_gained {above node : Node} (joined : above.Joined node) {parent child : ResourceId}
    {name : String} (fresh : above.id = parent → above.child? name = none) :
    (gained parent name child above).Joined (gained parent name child node) := by
  have different : ¬(above.id = parent ∧ node.name = name) := by
    rintro ⟨here, same⟩
    have := fresh here
    rw [← same, joined.child] at this
    cases this
  constructor
  · simp [joined.parent]
  · simp [joined.later]
  · simp [joined.isModule]
  · rw [name_gained, id_gained, child?_gained joined.isModule, if_neg different]
    exact joined.child
  · simpa using joined.path
  · simpa using joined.segment
  · simp [joined.inner]

theorem top_gained {node : Node} (top : node.Top) (parent child : ResourceId) (name : String) :
    (gained parent name child node).Top := by
  constructor
  · simp [top.isRoot]
  · simp [top.isModule]
  · simp [top.parent]
  · simp [top.header]
  · simp [top.path]

theorem joined_node (ground : Ground) {above : Node} {id : ResourceId} {header : Header}
    (basedir : Option FilePath) (module : above.isModule = true) (later : above.id < id)
    (segment : ResourcePath.IsSegment header.name) :
    (gained above.id header.name id above).Joined (header.node ground above id basedir) := by
  have child : (gained above.id header.name id above).child? header.name =
      if above.id = above.id ∧ header.name = header.name then some id
      else above.child? header.name := child?_gained module
  constructor
  · simp [Header.node]
  · simpa [Header.node] using later
  · simp [module]
  · rw [Header.name_node]
    simpa using child
  · simp [Header.node, Node.name]
  · simpa using segment
  · simp only [Header.node, Node.isRoot]
    split <;> grind

namespace IsTree
variable {arena : Arena} (tree : arena.IsTree)
include tree

theorem node?_push {parent : ResourceId} (known : (arena.node? parent).isSome = true)
    (name : String) (node : Node) (id : ResourceId) :
    (arena.push parent name node).node? id =
      if id = arena.next then some node
      else (arena.node? id).map (gained parent name node.id) := by
  rw [Arena.node?_push known]
  split
  · rfl
  · next old =>
    split
    · next same =>
      subst same
      cases found : arena.node? id with
      | none => rfl
      | some there => simp [gained, tree.own found]
    · next away =>
      cases found : arena.node? id with
      | none => rfl
      | some there => simp [gained, tree.own found, away]

theorem push (ground : Ground) {parent : ResourceId} {above : Node} {header : Header}
    {basedir : Option FilePath} (here : arena.node? parent = some above)
    (module : above.isModule = true) (segment : ResourcePath.IsSegment header.name)
    (fresh : above.child? header.name = none) (given : header.basedir? ground above = .ok basedir) :
    (arena.push parent header.name (header.node ground above arena.next basedir)).IsTree := by
  have known : (arena.node? parent).isSome = true := by rw [here]; rfl
  have itself : above.id = parent := tree.own here
  subst itself
  have nodes := tree.node?_push known header.name (header.node ground above arena.next basedir)
  have old : ∀ {id node}, arena.node? id = some node →
      (arena.push above.id header.name (header.node ground above arena.next basedir)).node? id =
        some (gained above.id header.name arena.next node) := by
    intro id node found
    have inside := id_lt_next found
    rw [nodes, if_neg (by grind), found]
    rfl
  have added : ∀ {id node},
      (arena.push above.id header.name (header.node ground above arena.next basedir)).node? id =
        some node → (id = arena.next ∧ node = header.node ground above arena.next basedir) ∨
        ∃ before, arena.node? id = some before ∧
          node = gained above.id header.name arena.next before := by
    intro id node found
    rw [nodes] at found
    split at found
    · next last => exact .inl ⟨last, (Option.some.inj found).symm⟩
    · obtain ⟨before, there, rfl⟩ := Option.map_eq_some_iff.mp found
      exact .inr ⟨before, there, rfl⟩
  constructor
  · intro id node found
    rcases added found with ⟨rfl, rfl⟩ | ⟨before, there, rfl⟩
    · rfl
    · rw [id_gained]
      exact tree.own there
  · obtain ⟨top, there, isTop⟩ := tree.top
    exact ⟨_, old there, top_gained isTop _ _ _⟩
  · intro id node found away
    rcases added found with ⟨rfl, rfl⟩ | ⟨before, there, rfl⟩
    · have joined := joined_node ground basedir module (id_lt_next here) segment
      exact ⟨_, by simpa using old here, joined⟩
    · obtain ⟨outer, outside, joined⟩ := tree.above there away
      refine ⟨_, by simpa using old outside, joined_gained joined ?_⟩
      intro same
      rw [same, here] at outside
      cases outside
      exact fresh
  · intro id node name child found inside
    rcases added found with ⟨rfl, rfl⟩ | ⟨before, there, rfl⟩
    · simp at inside
    · have isModule := Node.isModule_of_child? inside
      rw [isModule_gained] at isModule
      rw [child?_gained isModule] at inside
      split at inside
      · next same =>
        cases inside
        have last := nodes arena.next
        rw [if_pos rfl] at last
        exact ⟨_, last, by simp [← tree.own there, same.1], by simp [same.2]⟩
      · obtain ⟨inner, within, up, named⟩ := tree.child there inside
        exact ⟨_, old within, by simp [up], by simp [named]⟩
  · intro id node found project
    rcases added found with ⟨rfl, rfl⟩ | ⟨before, there, rfl⟩
    · exact Header.isSome_of_basedir? given (by simpa [Header.node, Node.isProject] using project)
    · simpa using tree.placed there (by simpa [Node.isProject] using project)

theorem entered {ground : Ground} {entered : Arena} (step : Entered ground arena entered) :
    entered.IsTree := by
  obtain ⟨parent, header, nested, id, admitted, done⟩ := step
  obtain ⟨module, _, segment⟩ := Declaration.admit_eq_ok_iff.mp admitted
  have here := node?_of_isModule module
  rcases enter_cases done with ⟨_, _, _, _, rfl⟩ | ⟨fresh, _, basedir, given, rfl⟩
  · exact tree
  · exact tree.push ground here module segment fresh given

theorem grown {ground : Ground} {grown : Arena} (steps : Grown ground arena grown) :
    grown.IsTree := by
  induction steps with
  | refl => exact tree
  | tail _ step ih => exact ih.entered step

end IsTree

theorem isTree_of_add {ground : Ground} {base id : ResourceId} {declaration : Declaration}
    {grown : Arena} (done : (start ground base).add ground base declaration = .ok (id, grown)) :
    grown.IsTree :=
  (isTree_start ground base).grown (grown_of_add declaration done)

end Arena
end ResourceLibrary
