import ResourceLibrary.Arena.Deliverable

/-!
Nodes of the resource tree. A node knows its parent and its children by number.
-/

namespace ResourceLibrary

abbrev ResourceId := Nat

inductive Body
  | plain
  | module (isRoot : Bool) (children : Table ResourceId)

/-- A resource with everything that follows from its declaration and its ancestors. Only a root has
no header and no parent. -/
structure Node where
  id : ResourceId
  path : ResourcePath
  parent : Option ResourceId
  header : Option Header
  basedir : Option FilePath
  properties : Properties
  statutoryVersion : Option String
  version : Option String
  deliverables : List Deliverable
  filters : Table String
  body : Body

namespace Node

def root (id : ResourceId) (properties : Properties) : Node :=
  ⟨id, .root, none, none, none, properties, none, none, [], ∅, .module true ∅⟩

/-- What a number that no node has stands for: an empty resource without a place. -/
def absent : Node := ⟨0, .root, none, none, none, ∅, none, none, [], ∅, .plain⟩

instance : Inhabited Node := ⟨absent⟩

def name (node : Node) : String := node.path.name

def isRoot (node : Node) : Bool :=
  match node.body with
  | .module isRoot _ => isRoot
  | .plain => false

def isModule (node : Node) : Bool :=
  match node.body with
  | .module .. => true
  | .plain => false

def classifier (node : Node) : Classifier := node.header.elim .standard (·.classifier)
def isAnonymous (node : Node) : Bool := node.header.any Header.isAnonymous
def isProject (node : Node) : Bool := node.header.any Header.isProject

def childTable (node : Node) : Table ResourceId :=
  match node.body with
  | .module _ children => children
  | .plain => ∅

def children (node : Node) : List ResourceId := node.childTable.values
def child? (node : Node) (name : String) : Option ResourceId := node.childTable.get? name

def withChild (node : Node) (name : String) (id : ResourceId) : Node :=
  match node.body with
  | .module isRoot children => { node with body := .module isRoot (children.insert name id) }
  | .plain => node

def produces (node : Node) (id : String) : Bool := node.deliverables.any (·.id == id)

def text (node : Node) : String :=
  let word := if node.isModule then "module" else if node.isProject then "project" else "resource"
  word ++ ":" ++ node.path.text ++ node.version.elim "" ("#" ++ ·)

def deliverable (node : Node) (id : String) : Except Failure Deliverable :=
  match node.deliverables.find? fun d => d.id == id || d.compoundName == id with
  | some deliverable => .ok deliverable
  | none => .error (.typeNotFound id node.text)

def title? (node : Node) : Option String := node.header.bind (·.info.title)
def description? (node : Node) : Option String := node.header.bind (·.info.description)
def isExported (node : Node) : Bool := node.header.any (·.exported)

@[simp] theorem children_of_plain {node : Node} (plain : node.isModule = false) :
    node.children = [] := by
  unfold isModule at plain
  unfold children childTable
  split at plain
  · simp at plain
  · next => simp [Table.values]; rfl

theorem child?_withChild {node : Node} (module : node.isModule = true) (name other : String)
    (id : ResourceId) :
    (node.withChild name id).child? other =
      if other = name then some id else node.child? other := by
  unfold isModule at module
  split at module
  · next eq => simp [withChild, child?, childTable, eq, Table.get?_insert]
  · simp at module

end Node
end ResourceLibrary
