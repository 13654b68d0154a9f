import ResourceLibrary.Distinct
import ResourceLibrary.Library.Anonymous
import ResourceLibrary.Library.Lookup
import ResourceLibrary.Walk

/-!
Providers: what a resource depends on. A tier gives the resources that its includes name; a module
also provides its children at RUNTIME, and at BUILD the modules outside it that its plain children
need. The latter are found over RUNTIME and TEST tiers alone, so asking for them never asks for
them again.
-/

namespace ResourceLibrary

/-- Text that a key or ref include is looked up by from the library root: a key stands next to the
declaring resource. -/
def Include.reference (nodes : ResourceId → Node) (node : Node) (entry : Include) : String :=
  match entry.mode, enclosing? nodes node with
  | .key, some parent => parent.path.text ++ "/" ++ entry.value
  | _, _ => entry.value

def isImplicit (category : Option Category) : Bool := category.all (· = .undefined)

namespace Query

def included (node : Node) (scope : Scope) (category : Option Category) (entry : Include) :
    Query ResourceId :=
  match entry.mode with
  | .uri =>
    let urn := node.properties.resolve entry.value
    (anonymous urn entry.properties).mapFailure (.anonymousResource urn node.path.text)
  | _ => do
    let reference := entry.reference (← nodes) node
    (lookup Library.root reference).mapFailure fun _ =>
      .unknownReference node.text reference scope category

/-- Resources that a node's includes name at a tier and, at RUNTIME, a module's children. -/
def declared (id : ResourceId) (tier : Scope) (category : Option Category) :
    Query (List ResourceId) := do
  let node ← node id
  match node.header with
  | none => return []
  | some header =>
    let named ← (header.includes tier category).mapM (included node tier category)
    let implicit := if tier = .runtime && isImplicit category then node.children else []
    return distinct (named ++ implicit)

def gather (tiers : List Scope) (providers : Scope → Query (List ResourceId)) :
    Query (List ResourceId) := do
  return distinct (← tiers.mapM providers).flatten

def closure (starts : List ResourceId) (next : ResourceId → Query (List ResourceId)) :
    Query (List ResourceId) := do
  return (← Walk.postOrder (← depth) next starts).order

/-- Everything that a plain resource needs at any tier and, from there on, at RUNTIME and TEST. -/
def needs (id : ResourceId) : Query (List ResourceId) := do
  let starts ← gather (Scope.tiers .test true) (declared id · none)
  closure starts fun id => gather (Scope.tiers .test false) (declared id · none)

def outerModules (module : Node) (needed : ResourceId) : Query (List ResourceId) := do
  let nodes ← nodes
  let needed := nodes needed
  if needed.isAnonymous then return []
  match enclosing? nodes needed with
  | none => return []
  | some parent =>
    if parent.path.startsWith module.path || module.path.startsWith parent.path then return []
    return [parent.id]

def neededModules (module : Node) : Query (List ResourceId) := do
  let plain ← module.children.filterM fun child => return !(← node child).isModule
  let found ← plain.mapM fun child => do
    return (← (← needs child).mapM (outerModules module)).flatten
  return found.flatten

def localProviders (id : ResourceId) (tier : Scope) (category : Option Category) :
    Query (List ResourceId) := do
  let found ← declared id tier category
  let node ← node id
  if tier = .build && node.isModule && node.header.isSome && isImplicit category then
    return (← neededModules node).foldl addNew found
  return found

def aggregated (id : ResourceId) (scope : Scope) (withBuild : Bool) : Query (List ResourceId) :=
  gather (scope.tiers withBuild) (localProviders id · none)

/-- Providers with everything reached from them. On the way the BUILD tier counts only at BUILD. -/
def expanded (providers : List ResourceId) (scope : Scope) : Query (List ResourceId) :=
  closure providers (aggregated · scope (scope = .build))

def tierProviders (id : ResourceId) (scope : Scope) (expand : Bool) (category : Option Category) :
    Query (List ResourceId) := do
  let found ← localProviders id scope category
  if expand then expanded found scope else return found

def aggregatedProviders (id : ResourceId) (scope : Scope) (expand withBuild : Bool) :
    Query (List ResourceId) := do
  let found ← aggregated id scope withBuild
  if expand then expanded found scope else return found

end Query
end ResourceLibrary
