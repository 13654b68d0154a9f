import Mathlib.Logic.Function.Basic
import ResourceLibrary.Proofs.Arena.Planting

/-!
Layouts: what stands at each path, with the numbers of the nodes left out. Declarations are added to
a layout by paths as they are added to an arena by numbers. Main statement: the layout of an arena
grown by declarations is its layout grown by the same declarations, failures included.
-/

namespace ResourceLibrary

namespace Node

@[simp] theorem properties_childless (node : Node) :
    node.childless.properties = node.properties := by
  unfold childless
  split <;> rfl

@[simp] theorem statutoryVersion_childless (node : Node) :
    node.childless.statutoryVersion = node.statutoryVersion := by
  unfold childless
  split <;> rfl

@[simp] theorem filters_childless (node : Node) : node.childless.filters = node.filters := by
  unfold childless
  split <;> rfl

/-- The node without its number and those of its parent and its children. -/
def unnumbered (node : Node) : Node := { node.childless with id := 0, parent := none }

section
variable (node : Node)

@[simp] theorem path_unnumbered : node.unnumbered.path = node.path := path_childless node

@[simp] theorem header_unnumbered : node.unnumbered.header = node.header := header_childless node

@[simp] theorem basedir_unnumbered : node.unnumbered.basedir = node.basedir :=
  basedir_childless node

@[simp] theorem properties_unnumbered : node.unnumbered.properties = node.properties :=
  properties_childless node

@[simp] theorem statutoryVersion_unnumbered :
    node.unnumbered.statutoryVersion = node.statutoryVersion := statutoryVersion_childless node

@[simp] theorem version_unnumbered : node.unnumbered.version = node.version :=
  version_childless node

@[simp] theorem filters_unnumbered : node.unnumbered.filters = node.filters :=
  filters_childless node

@[simp] theorem isModule_unnumbered : node.unnumbered.isModule = node.isModule :=
  isModule_childless node

end

theorem unnumbered_of_childless {node other : Node} (same : node.childless = other.childless) :
    node.unnumbered = other.unnumbered := by
  rw [unnumbered, unnumbered, same]

end Node

namespace Header
variable (ground : Ground) (above : Node) (header : Header)

theorem node_unnumbered (id : ResourceId) (basedir : Option FilePath) :
    (header.node ground above.unnumbered 0 basedir).unnumbered =
      (header.node ground above id basedir).unnumbered := by
  obtain ⟨_, _, _, _, _, _, _, _, _, _, body⟩ := above
  cases body <;> simp only [Node.unnumbered, childless_node] <;> rfl

@[simp] theorem basedir?_unnumbered :
    header.basedir? ground above.unnumbered = header.basedir? ground above := by
  obtain ⟨_, _, _, _, _, _, _, _, _, _, body⟩ := above
  cases body <;> rfl

@[simp] theorem agree_unnumbered (module : Node) :
    header.agree ground above.unnumbered module.unnumbered = header.agree ground above module := by
  obtain ⟨_, _, _, _, _, _, _, _, _, _, body⟩ := above
  obtain ⟨_, _, _, _, _, _, _, _, _, _, other⟩ := module
  cases body <;> cases other <;> rfl

end Header

@[simp] theorem Declaration.admit_unnumbered (above : Node) (declaration : Declaration) :
    Declaration.admit above.unnumbered declaration = Declaration.admit above declaration := by
  unfold Declaration.admit
  simp

abbrev Layout := ResourcePath → Option Node

def Arena.layout (arena : Arena) : Layout := fun path =>
  (arena.nodes.toList.find? fun node => node.path = path).map Node.unnumbered

namespace Arena.IsTree
variable {arena : Arena} (tree : arena.IsTree)
include tree

theorem layout_eq_some_iff {path : ResourcePath} {place : Node} :
    arena.layout path = some place ↔
      ∃ id node, arena.node? id = some node ∧ node.path = path ∧ node.unnumbered = place := by
  have known : ∀ node ∈ arena.nodes.toList, ∃ id, arena.node? id = some node := by
    intro node member
    obtain ⟨position, here⟩ := List.mem_iff_getElem?.mp member
    refine ⟨arena.base + position, node?_eq_some_iff.mpr ⟨Nat.le_add_right .., ?_⟩⟩
    rwa [Nat.add_sub_cancel_left, ← Array.getElem?_toList]
  constructor
  · intro found
    obtain ⟨node, first, rfl⟩ := Option.map_eq_some_iff.mp found
    obtain ⟨id, here⟩ := known node (List.mem_of_find?_eq_some first)
    exact ⟨id, node, here, by simpa using List.find?_some first, rfl⟩
  · rintro ⟨id, node, here, rfl, rfl⟩
    have member : node ∈ arena.nodes.toList :=
      Array.mem_toList_iff.mpr (Array.mem_of_getElem? (node?_eq_some_iff.mp here).2)
    cases first : arena.nodes.toList.find? fun other => other.path = node.path with
    | none => exact absurd (List.find?_eq_none.mp first node member) (by simp)
    | some other =>
      obtain ⟨number, there⟩ := known other (List.mem_of_find?_eq_some first)
      have same := tree.path_injective there here (by simpa using List.find?_some first)
      rw [same, here] at there
      cases there
      rw [layout, first]
      rfl

theorem layout_of_node? {id : ResourceId} {node : Node} (found : arena.node? id = some node) :
    arena.layout node.path = some node.unnumbered :=
  tree.layout_eq_some_iff.mpr ⟨id, node, found, rfl, rfl⟩

theorem isSome_layout_iff {path : ResourcePath} :
    (arena.layout path).isSome = true ↔ ∃ id node, arena.node? id = some node ∧ node.path = path := by
  rw [Option.isSome_iff_exists]
  constructor
  · rintro ⟨_, stands⟩
    obtain ⟨id, node, found, same, _⟩ := tree.layout_eq_some_iff.mp stands
    exact ⟨id, node, found, same⟩
  · rintro ⟨id, node, found, rfl⟩
    exact ⟨_, tree.layout_of_node? found⟩

theorem layout_child {parent : ResourceId} {above : Node} (here : arena.node? parent = some above)
    (name : String) :
    arena.layout (above.path.child name) =
      (above.child? name).map fun id => (arena.node id).unnumbered := by
  cases inside : above.child? name with
  | some id =>
    obtain ⟨inner, there, joined, named⟩ := tree.joined_of_child? here inside
    rw [← named, ← joined.path, tree.layout_of_node? there]
    simp [node_of_node? there]
  | none =>
    rw [Option.map_none, Option.eq_none_iff_forall_ne_some]
    intro place stands
    obtain ⟨id, node, there, path, _⟩ := tree.layout_eq_some_iff.mp stands
    have child := tree.child?_of_path here there path
    rw [inside] at child
    cases child

theorem layout_push (ground : Ground) {parent : ResourceId} {above : Node} {header : Header}
    {basedir : Option FilePath} (here : arena.node? parent = some above)
    (module : above.isModule = true) (segment : ResourcePath.IsSegment header.name)
    (fresh : above.child? header.name = none) (given : header.basedir? ground above = .ok basedir) :
    (arena.push parent header.name (header.node ground above arena.next basedir)).layout =
      Function.update arena.layout (above.path.child header.name)
        (some (header.node ground above arena.next basedir).unnumbered) := by
  have grove := tree.push ground here module segment fresh given
  have nodes := tree.node?_push (by rw [here]; rfl) header.name
    (header.node ground above arena.next basedir)
  funext path
  by_cases same : path = above.path.child header.name
  · rw [same, Function.update_self]
    have last := nodes arena.next
    rw [if_pos rfl] at last
    exact grove.layout_of_node? last
  · rw [Function.update_of_ne same]
    apply Option.ext
    intro place
    rw [grove.layout_eq_some_iff, tree.layout_eq_some_iff]
    constructor
    · rintro ⟨id, node, found, rfl, rfl⟩
      rw [nodes] at found
      split at found
      · cases found
        exact absurd rfl same
      · obtain ⟨old, there, rfl⟩ := Option.map_eq_some_iff.mp found
        exact ⟨id, old, there, by simp, (Node.unnumbered_of_childless (childless_gained ..)).symm⟩
    · rintro ⟨id, node, found, rfl, rfl⟩
      refine ⟨id, gained parent header.name arena.next node, ?_, by simp,
        Node.unnumbered_of_childless (childless_gained ..)⟩
      rw [nodes, if_neg (Nat.ne_of_lt (id_lt_next found)), found]
      rfl

end Arena.IsTree

def Header.settle (ground : Ground) (above : Node) (present : Option Node) (header : Header) :
    Except Failure Node :=
  match present with
  | some module =>
    if module.isModule && header.isModule then
      (header.agree ground above module).map fun _ => module
    else .error (.duplicateKey header.name above.path.text)
  | none =>
    (header.basedir? ground above).map fun basedir => (header.node ground above 0 basedir).unnumbered

namespace Layout

def node (layout : Layout) (place : ResourcePath) : Node := (layout place).getD .absent

def enter (ground : Ground) (layout : Layout) (place : ResourcePath) (header : Header) :
    Except Failure Layout :=
  (header.settle ground (layout.node place) (layout (place.child header.name))).map fun node =>
    Function.update layout (place.child header.name) (some node)

mutual

def add (ground : Ground) (layout : Layout) (place : ResourcePath) :
    Declaration → Except Failure Layout
  | ⟨header, nested⟩ => do
    Declaration.admit (layout.node place) ⟨header, nested⟩
    let entered ← layout.enter ground place header
    addAll ground entered (place.child header.name) nested

def addAll (ground : Ground) (layout : Layout) (place : ResourcePath) :
    List Declaration → Except Failure Layout
  | [] => .ok layout
  | declaration :: rest => do
    let grown ← layout.add ground place declaration
    addAll ground grown place rest

end

section
variable {ground : Ground} {layout grown : Layout} {place : ResourcePath}

theorem add_eq_ok_iff {header : Header} {nested : List Declaration} :
    layout.add ground place ⟨header, nested⟩ = .ok grown ↔
      Declaration.admit (layout.node place) ⟨header, nested⟩ = .ok () ∧
      ∃ node, header.settle ground (layout.node place) (layout (place.child header.name)) =
          .ok node ∧
        addAll ground (Function.update layout (place.child header.name) (some node))
          (place.child header.name) nested = .ok grown := by
  rw [add, enter]
  simp only [bind_eq_ok_iff]
  constructor
  · rintro ⟨_, admitted, entered, entry, below⟩
    cases settled : header.settle ground (layout.node place) (layout (place.child header.name)) with
    | error failure => simp [settled, Except.map] at entry
    | ok node =>
      simp only [settled, Except.map, Except.ok.injEq] at entry
      exact ⟨admitted, node, rfl, entry ▸ below⟩
  · rintro ⟨admitted, node, settled, below⟩
    exact ⟨(), admitted, _, by rw [settled]; rfl, below⟩

theorem addAll_nil_eq_ok_iff : layout.addAll ground place [] = .ok grown ↔ grown = layout := by
  rw [addAll, Except.ok.injEq, eq_comm]

theorem addAll_cons_eq_ok_iff {declaration : Declaration} {rest : List Declaration} :
    layout.addAll ground place (declaration :: rest) = .ok grown ↔
      ∃ mid, layout.add ground place declaration = .ok mid ∧
        mid.addAll ground place rest = .ok grown := by
  rw [addAll, bind_eq_ok_iff]

theorem addAll_append (front back : List Declaration) :
    layout.addAll ground place (front ++ back) =
      layout.addAll ground place front >>= (·.addAll ground place back) := by
  induction front generalizing layout with
  | nil =>
    rw [List.nil_append, addAll]
    rfl
  | cons declaration rest ih =>
    rw [List.cons_append, addAll, addAll]
    cases layout.add ground place declaration with
    | error failure => rfl
    | ok mid => exact ih

end

end Layout

namespace Arena

@[simp] theorem layout_start (ground : Ground) (base : ResourceId) :
    (start ground base).layout =
      fun path => if path = .root then some (.root 0 ground.properties) else none := by
  funext path
  by_cases atRoot : path = .root
  · subst atRoot
    rfl
  · rw [if_neg atRoot]
    simp [layout, start, Node.root, Ne.symm atRoot]

variable (ground : Ground)

theorem layout_enter {arena : Arena} (tree : arena.IsTree) {parent : ResourceId} {above : Node}
    (here : arena.node? parent = some above) {header : Header} (module : above.isModule = true)
    (segment : ResourcePath.IsSegment header.name) :
    (arena.enter ground parent header).map (·.2.layout) =
      arena.layout.enter ground above.path header := by
  have stands : arena.layout.node above.path = above.unnumbered := by
    rw [Layout.node, tree.layout_of_node? here]
    rfl
  rw [Layout.enter, stands, tree.layout_child here]
  simp only [enter, node_of_node? here]
  cases inside : above.child? header.name with
  | some present =>
    have child := tree.layout_child here header.name
    rw [inside] at child
    simp only [Option.map_some, Header.settle, Node.isModule_unnumbered, Header.agree_unnumbered,
      Node.path_unnumbered]
    split
    · cases header.agree ground above (arena.node present) with
      | error failure => rfl
      | ok agreement =>
        simp only [Except.map]
        rw [Function.update_eq_self_iff.mpr]
        rw [child]
        rfl
    · rfl
  | none =>
    simp only [Option.map_none, Header.settle, Header.basedir?_unnumbered]
    cases given : header.basedir? ground above with
    | error failure => rfl
    | ok basedir =>
      simp only [Except.map]
      rw [tree.layout_push ground here module segment inside given,
        Header.node_unnumbered ground above header arena.next]

mutual

/-- Adding by numbers shows as adding by paths. -/
theorem layout_add {arena : Arena} (tree : arena.IsTree) {parent : ResourceId} {above : Node}
    (here : arena.node? parent = some above) :
    ∀ declaration, (arena.add ground parent declaration).map (·.2.layout) =
      arena.layout.add ground above.path declaration
  | ⟨header, nested⟩ => by
    have stands : arena.layout.node above.path = above.unnumbered := by
      rw [Layout.node, tree.layout_of_node? here]
      rfl
    rw [add, Layout.add, stands, Declaration.admit_unnumbered, node_of_node? here]
    cases admitted : Declaration.admit above ⟨header, nested⟩ with
    | error failure => rfl
    | ok _ =>
      obtain ⟨module, _, segment⟩ := Declaration.admit_eq_ok_iff.mp admitted
      have shown := layout_enter ground tree here module segment
      cases entry : arena.enter ground parent header with
      | error failure =>
        rw [entry] at shown
        simp only [bind, Except.bind, ← shown]
        rfl
      | ok result =>
        obtain ⟨id, entered⟩ := result
        rw [entry] at shown
        obtain ⟨⟨inner, there, path⟩, _⟩ := node?_of_enter tree here entry
        have grove := tree.entered ⟨parent, header, nested, id, by rwa [node_of_node? here], entry⟩
        have below := layout_addAll grove there nested
        rw [path] at below
        simp only [bind, Except.bind, ← shown, Except.map, ← below]
        cases entered.addAll ground id nested <;> rfl

theorem layout_addAll {arena : Arena} (tree : arena.IsTree) {parent : ResourceId} {above : Node}
    (here : arena.node? parent = some above) :
    ∀ declarations, (arena.addAll ground parent declarations).map layout =
      arena.layout.addAll ground above.path declarations
  | [] => by
    rw [addAll, Layout.addAll]
    rfl
  | declaration :: rest => by
    have first := layout_add tree here declaration
    rw [addAll, Layout.addAll, ← first]
    cases added : arena.add ground parent declaration with
    | error failure => rfl
    | ok result =>
      obtain ⟨id, mid⟩ := result
      have steps := grown_of_add declaration added
      obtain ⟨kept, there, alike⟩ := tree.node?_of_grown steps here
      have path := Node.eq_of_childless Node.path_childless alike
      have further := layout_addAll (tree.grown steps) there rest
      rw [path] at further
      exact further

end

end Arena
end ResourceLibrary
