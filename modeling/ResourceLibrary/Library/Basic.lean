import ResourceLibrary.Arena.Growth

/-!
Libraries and the queries on them. The nodes of a library are frozen once it is built. Resources
that are known by an artifact coordinate alone are registered while queries run, with the numbers
that follow the frozen ones; what a query registers stays even if the query fails.
-/

namespace ResourceLibrary

structure Library where
  settings : Settings
  ground : Ground
  frozen : Array Node

/-- Resources synthesized from coordinates so far, and the number of each by its coordinate. -/
structure Registry where
  nodes : Array Node
  urns : List (String × ResourceId)

def Registry.empty : Registry := ⟨#[], []⟩

abbrev Query := ReaderT Library (ExceptT Failure (StateM Registry))

namespace Query
variable {α : Type}

def answer (query : Query α) (library : Library) (registry : Registry) :
    Except Failure α × Registry :=
  (query library).run registry

def ofExcept (result : Except Failure α) : Query α :=
  match result with
  | .ok value => pure value
  | .error failure => throw failure

def mapFailure (change : Failure → Failure) (query : Query α) : Query α :=
  tryCatch query fun failure => throw (change failure)

end Query

namespace Library

def root : ResourceId := 0

def node (library : Library) (registry : Registry) (id : ResourceId) : Node :=
  if id < library.frozen.size then library.frozen.getD id .absent
  else registry.nodes.getD (id - library.frozen.size) .absent

def property? (library : Library) (key : String) : Option String :=
  (library.frozen.getD root .absent).properties.get? key

def properties (library : Library) : Properties := (library.frozen.getD root .absent).properties

def size (library : Library) : Nat := library.frozen.size - 1

end Library

namespace Query

def nodes : Query (ResourceId → Node) := do return (← read).node (← get)

def node (id : ResourceId) : Query Node := do return (← nodes) id

/-- More than there are nodes known at this point. Nodes registered later have no neighbours in any
walk, so no way without repetition is longer. -/
def depth : Query Nat := do return (← read).frozen.size + (← get).nodes.size + 1

def settle (path : FilePath) : Query FilePath := do return (← read).ground.settle path

end Query

def ancestors (nodes : ResourceId → Node) (node : Node) : List Node := climb node.path.length node
where
  climb : Nat → Node → List Node
    | 0, _ => []
    | steps + 1, node => match node.parent with
      | some parent => nodes parent :: climb steps (nodes parent)
      | none => []

def filtersOf (nodes : ResourceId → Node) (node : Node) : Table String :=
  let inherited := (ancestors nodes node).foldr (fun above : Node => (·.overlay above.filters)) ∅
  Table.overlay inherited node.filters

def childModules (nodes : ResourceId → Node) (node : Node) : List ResourceId :=
  node.children.filter fun child => (nodes child).isModule

def enclosing? (nodes : ResourceId → Node) (node : Node) : Option Node :=
  (node.parent.map nodes).filter fun parent => !parent.isRoot

end ResourceLibrary
