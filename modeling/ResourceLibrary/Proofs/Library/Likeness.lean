import Mathlib.Data.List.Forall2
import ResourceLibrary.Proofs.Library.Registration

/-!
Nodes that differ only in numbers and in the properties that a coordinate was first met with. Main
statement: two batches of one coordinate are alike node by node.
-/

namespace ResourceLibrary

theorem option_rel_cases {α β : Type} {rel : α → β → Prop} {a : Option α} {b : Option β}
    (both : Option.Rel rel a b) :
    a = none ∧ b = none ∨ ∃ x y, a = some x ∧ b = some y ∧ rel x y := by
  cases both with
  | none => exact .inl ⟨rfl, rfl⟩
  | some related => exact .inr ⟨_, _, rfl, rfl, related⟩

def Node.Bare (node : Node) : Prop := ∀ header, node.header = some header → header.dependencies = []

/-- Nodes that cannot be told apart, but for numbers that correspond; their declarations are the
same or name no dependencies. -/
structure Node.Alike (same : ResourceId → ResourceId → Prop) (a b : Node) : Prop where
  id : same a.id b.id
  path : a.path = b.path
  version : a.version = b.version
  basedir : a.basedir = b.basedir
  deliverables : a.deliverables = b.deliverables
  classified : a.header.map Header.classifier = b.header.map Header.classifier
  isModule : a.isModule = b.isModule
  isRoot : a.isRoot = b.isRoot
  includes : a = b ∨ a.Bare ∧ b.Bare
  parent : Option.Rel same a.parent b.parent
  children : List.Forall₂ same a.children b.children

theorem Node.isAnonymous_eq (node : Node) :
    node.isAnonymous = (node.header.map Header.classifier).any (· = .anonymous) := by
  unfold Node.isAnonymous
  cases node.header <;> rfl

theorem Node.isProject_eq (node : Node) :
    node.isProject = (node.header.map Header.classifier).any (· = .project) := by
  unfold Node.isProject
  cases node.header <;> rfl

namespace Node.Alike
variable {same : ResourceId → ResourceId → Prop} {a b : Node} (alike : a.Alike same b)
include alike

theorem name : a.name = b.name := by rw [Node.name, Node.name, alike.path]

theorem isSome_header : a.header.isSome = b.header.isSome := by
  have classified := congrArg Option.isSome alike.classified
  simpa using classified

theorem isAnonymous : a.isAnonymous = b.isAnonymous := by
  rw [Node.isAnonymous_eq, Node.isAnonymous_eq, alike.classified]

theorem isProject : a.isProject = b.isProject := by
  rw [Node.isProject_eq, Node.isProject_eq, alike.classified]

theorem text : a.text = b.text := by
  rw [Node.text, Node.text, alike.isModule, alike.isProject, alike.path, alike.version]

theorem produces (id : String) : a.produces id = b.produces id := by
  rw [Node.produces, Node.produces, alike.deliverables]

end Node.Alike

theorem Node.Bare.includes {node : Node} (bare : node.Bare) {header : Header}
    (declared : node.header = some header) (scope : Scope) (category : Option Category) :
    header.includes scope category = [] := by
  simp [Header.includes, bare header declared]

def Header.Twin (a b : Header) : Prop := b = { a with properties := b.properties }

theorem Header.twin_refl (header : Header) : header.Twin header := rfl

theorem Node.children_withChild {node : Node} (childless : node.childTable = ∅) (name : String)
    (child : ResourceId) :
    (node.withChild name child).children = if node.isModule then [child] else [] := by
  cases body : node.body with
  | plain => simp [Node.withChild, Node.children, Node.childTable, Node.isModule, body]; rfl
  | module isRoot children =>
    simp only [Node.childTable, body] at childless
    simp [Node.withChild, Node.children, Node.childTable, Node.isModule, body, childless]
    rfl

theorem Node.bare_root (id : ResourceId) (properties : Properties) :
    (Node.root id properties).Bare := by
  intro header declared
  cases declared

theorem Node.bare_withChild {node : Node} (bare : node.Bare) (name : String) (child : ResourceId) :
    (node.withChild name child).Bare := by
  intro header declared
  rw [Node.header_withChild] at declared
  exact bare header declared

section
variable {same : ResourceId → ResourceId → Prop} {a b : Node}

@[simp] theorem Node.version_withChild (node : Node) (name : String) (child : ResourceId) :
    (node.withChild name child).version = node.version := by
  unfold Node.withChild
  split <;> rfl

@[simp] theorem Node.deliverables_withChild (node : Node) (name : String) (child : ResourceId) :
    (node.withChild name child).deliverables = node.deliverables := by
  unfold Node.withChild
  split <;> rfl

theorem Node.Alike.withChild (alike : a.Alike same b) (bare : a.Bare ∧ b.Bare)
    (childless : a.childTable = ∅ ∧ b.childTable = ∅) (name : String) {i j : ResourceId}
    (child : same i j) : (a.withChild name i).Alike same (b.withChild name j) := by
  constructor
  · simpa using alike.id
  · simpa using alike.path
  · simpa using alike.version
  · simpa using alike.basedir
  · simpa using alike.deliverables
  · simpa using alike.classified
  · simpa using alike.isModule
  · simpa using alike.isRoot
  · exact .inr ⟨bare_withChild bare.1 name i, bare_withChild bare.2 name j⟩
  · simpa using alike.parent
  · rw [children_withChild childless.1, children_withChild childless.2, alike.isModule]
    split
    · exact .cons child .nil
    · exact .nil

theorem Header.Synthetic.version? {header : Header} (synthetic : header.Synthetic)
    (ground : Ground) (above : Node) : header.version? ground above = header.version := by
  simp [Header.version?, Header.statutoryVersion?, synthetic.isAnonymous]

theorem childTable_node (ground : Ground) (above : Node) (id : ResourceId) (header : Header)
    (basedir : Option FilePath) : (header.node ground above id basedir).childTable = ∅ := by
  cases module : header.isModule <;> simp [Header.node, Node.childTable, module]

theorem bare_node (ground : Ground) (above : Node) (id : ResourceId) {header : Header}
    (synthetic : header.Synthetic) (basedir : Option FilePath) :
    (header.node ground above id basedir).Bare := by
  intro declared given
  cases given
  exact synthetic.dependencies

theorem alike_node (ground : Ground) (alike : a.Alike same b) {header other : Header}
    (twin : header.Twin other) (synthetic : header.Synthetic ∧ other.Synthetic)
    {i j : ResourceId} (number : same i j) :
    (header.node ground a i none).Alike same (other.node ground b j none) := by
  have bare := And.intro (bare_node ground a i synthetic.1 none)
    (bare_node ground b j synthetic.2 none)
  have versions : header.version = other.version := by rw [twin]
  have children : ∀ (above : Node) (id : ResourceId) (header : Header),
      (header.node ground above id none).children = [] := by
    intro above id header
    rw [Node.children, childTable_node]
    rfl
  constructor
  · exact number
  · simp only [Header.node, alike.path]
    rw [twin]
  · simp only [Header.node, synthetic.1.version?, synthetic.2.version?, versions]
  · rfl
  · simp only [Header.node, synthetic.1.version?, synthetic.2.version?, versions, alike.path]
    rw [twin]
  · simp only [Header.node, Option.map_some]
    rw [twin]
  · simp only [Header.node]
    rw [twin]
    rfl
  · simp only [Header.node]
    rw [twin]
    rfl
  · exact .inr bare
  · exact .some alike.id
  · rw [children, children]
    exact .nil

theorem forall₂_line (ground : Ground) {headers others : List Header}
    (twins : List.Forall₂ Header.Twin headers others)
    (synthetic : ∀ header ∈ headers ++ others, header.Synthetic) (alike : a.Alike same b)
    (bare : a.Bare ∧ b.Bare) (childless : a.childTable = ∅ ∧ b.childTable = ∅)
    (numbers : ∀ step ≤ headers.length, same (a.id + step) (b.id + step)) :
    List.Forall₂ (Node.Alike same) (line ground a (a.id + 1) headers)
      (line ground b (b.id + 1) others) := by
  induction twins generalizing a b with
  | nil => exact .cons alike .nil
  | @cons header other headers others twin _ ih =>
    have both := And.intro (synthetic header (by simp)) (synthetic other (by simp))
    have first := numbers 1 (by simp)
    have below := alike_node ground alike twin both first
    rw [line, line]
    refine .cons ?_ (ih ?_ below ?_ ?_ ?_)
    · have named : header.name = other.name := by rw [twin]
      rw [named]
      exact alike.withChild bare childless _ first
    · intro found member
      rcases List.mem_append.mp member with one | two
      · exact synthetic found (by simp [one])
      · exact synthetic found (by simp [two])
    · exact ⟨bare_node ground a _ both.1 none, bare_node ground b _ both.2 none⟩
    · exact ⟨childTable_node ground a _ header none, childTable_node ground b _ other none⟩
    · intro step bound
      have further := numbers (step + 1) (by simpa using bound)
      rw [Header.id_node, Header.id_node, Nat.add_assoc, Nat.add_assoc, Nat.add_comm 1 step]
      exact further

theorem Coordinate.forall₂_batch {coordinate : Coordinate} (placed : coordinate.Placed)
    (ground : Ground) {base other : ResourceId} (properties changed : Properties)
    (numbers : ∀ step ≤ coordinate.names.length, same (base + step) (other + step)) :
    List.Forall₂ (Node.Alike same) (coordinate.batch ground base properties)
      (coordinate.batch ground other changed) := by
  have twins : List.Forall₂ Header.Twin (coordinate.headers properties)
      (coordinate.headers changed) := by
    refine List.rel_append ?_ (.cons rfl .nil)
    exact List.forall₂_same.mpr fun header _ => header.twin_refl
  have tops : (Node.root base ground.properties).Alike same (.root other ground.properties) := by
    constructor
    case id => exact numbers 0 (Nat.zero_le _)
    case includes => exact .inr ⟨Node.bare_root _ _, Node.bare_root _ _⟩
    case parent => exact .none
    case children => exact .nil
    all_goals rfl
  refine forall₂_line ground twins ?_ tops ?_ ⟨rfl, rfl⟩ ?_
  · intro header member
    rcases List.mem_append.mp member with one | two
    · exact Coordinate.synthetic_of_mem_headers placed one
    · exact Coordinate.synthetic_of_mem_headers placed two
  · exact ⟨Node.bare_root _ _, Node.bare_root _ _⟩
  · intro step bound
    rw [Coordinate.length_headers] at bound
    exact numbers step bound

end

structure Node.Synthetic (node : Node) : Prop where
  isAnonymous : node.isRoot = true ∨ node.isAnonymous = true
  bare : node.Bare

theorem synthetic_of_mem_line (ground : Ground) {headers : List Header}
    (synthetic : ∀ header ∈ headers, header.Synthetic) {above : Node} {id : ResourceId}
    (top : above.Synthetic) {node : Node} (member : node ∈ line ground above id headers) :
    node.Synthetic := by
  induction headers generalizing above id with
  | nil =>
    rw [line, List.mem_singleton] at member
    rw [member]
    exact top
  | cons header rest ih =>
    have first := synthetic header (by simp)
    rw [line] at member
    rcases List.mem_cons.mp member with rfl | below
    · exact ⟨by simpa [Node.isAnonymous] using top.isAnonymous, Node.bare_withChild top.bare _ _⟩
    · refine ih (fun other inRest => synthetic other (by simp [inRest])) ?_ below
      exact ⟨.inr first.isAnonymous, bare_node ground above id first none⟩

theorem Coordinate.synthetic_of_mem_batch {coordinate : Coordinate} (placed : coordinate.Placed)
    {ground : Ground} {base : ResourceId} {properties : Properties} {node : Node}
    (member : node ∈ coordinate.batch ground base properties) : node.Synthetic :=
  synthetic_of_mem_line ground (fun _ => Coordinate.synthetic_of_mem_headers placed)
    ⟨.inl rfl, Node.bare_root _ _⟩ member

end ResourceLibrary
