import ResourceLibrary.Library.Providers

/-!
Dependency order. Candidates are sorted by a post-order walk over the candidates alone: each comes
after the candidates it depends on. A module depends also on the modules that its providers are in.
-/

namespace ResourceLibrary.Query

/-- Where the walk over the modules that `id` relies on goes from a node: over providers, over child
modules, and over the modules around the providers of plain resources. Anonymous resources and
modules around `id` itself, which is at `origin`, are not followed. -/
def moduleStep (id : ResourceId) (origin : ResourcePath) (scope : Scope) (current : ResourceId) :
    Query (List ResourceId) := do
  let nodes ← nodes
  let node := nodes current
  if node.isAnonymous || (current ≠ id && origin.startsWith node.path) then return []
  let providers ← aggregated current scope true
  let nodes ← Query.nodes
  if node.isModule then
    return (childModules nodes node).foldl addNew providers
  return distinct <| providers.filterMap fun provider =>
    (enclosing? nodes (nodes provider)).bind fun parent =>
      if origin.startsWith parent.path then none else some parent.id

def providerModules (id : ResourceId) (scope : Scope) : Query (List ResourceId) := do
  let origin := (← node id).path
  let reached ← closure [id] (moduleStep id origin scope)
  let nodes ← nodes
  return reached.filter fun module =>
    let node := nodes module
    node.isModule && !node.isAnonymous && !origin.startsWith node.path

def sortEdges (members : List ResourceId) (scope : Scope) (id : ResourceId) :
    Query (List ResourceId) := do
  let providers := (← aggregated id scope true).filter members.contains
  if (← node id).isModule then
    return ((← providerModules id scope).filter members.contains).foldl addNew providers
  return providers

/-- The candidates, each after those it depends on. A dependency cycle is broken where it closes;
if `strict` it is a failure instead. -/
def sort (candidates : List ResourceId) (scope : Scope) (strict : Bool) :
    Query (List ResourceId) := do
  let walk ← Walk.postOrder (← depth) (sortEdges candidates scope) candidates
  match strict, walk.cycles with
  | true, cycle :: _ =>
    let nodes ← nodes
    throw (.circularDependency (cycle.map fun id => (nodes id).path.text))
  | _, _ => return walk.order

def modulesBelow (nodes : ResourceId → Node) (depth : Nat) (id : ResourceId) : List ResourceId :=
  let inner := fun id => childModules nodes (nodes id)
  let walk : Id (Walk ResourceId) := Walk.postOrder depth (fun id => pure (inner id)) (inner id)
  walk.run.order

def allModules (id : ResourceId) (withSelf : Bool) : Query (List ResourceId) := do
  let below := modulesBelow (← nodes) (← depth) id
  sort (if withSelf then addNew below id else below) .test false

end ResourceLibrary.Query
