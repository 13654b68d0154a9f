import ResourceLibrary.Library.Providers

/-!
Exported modules: a declaration that stands for a module without the library around it. Providers
inside the module become references by path, all others coordinates of what they produce.
-/

namespace ResourceLibrary

def Category.exportOrder : List Category :=
  [.systemTier, .publicTier, .protectedTier, .privateTier, .undefined]

def Node.exportHeader (node : Node) : Header :=
  let plain := { Header.of (if node.isModule then .module else .resource) node.name with
    version := node.version }
  match node.header with
  | none => plain
  | some header =>
    { plain with
      info := header.info, exported := header.exported, scheme := header.scheme
      properties := header.properties
      products := header.products.filter fun product => product.exported && !product.isTest }

def liesIn (nodes : ResourceId → Node) (boundary : ResourceId) (node : Node) : Bool :=
  node.id = boundary || (ancestors nodes node).any (·.id = boundary)

def exportIncludes (nodes : ResourceId → Node) (boundary : ResourceId) (category : Category)
    (provider : Node) : List Include :=
  let entries := if liesIn nodes boundary provider then [Include.of .ref provider.path.text]
    else provider.deliverables.map fun product => .of .uri product.coordinate.text
  entries.map fun entry => { entry with category := category }

def addInclude (entries : List Include) (entry : Include) : List Include :=
  let isSame := fun present : Include => present.mode = entry.mode && present.value = entry.value
  if entries.any isSame then entries else entries ++ [entry]

namespace Query

def exportDependencies (boundary id : ResourceId) : Query (List Dependency) := do
  let found ← Category.exportOrder.mapM fun category => do
    let providers ← tierProviders id .runtime true (some category)
    let nodes ← nodes
    return (providers.map fun id => exportIncludes nodes boundary category (nodes id)).flatten
  let entries := found.flatten.foldl addInclude []
  return if entries.isEmpty then [] else [⟨.runtime, entries⟩]

/-- Declaration of a node and all below it. Numbers grow downwards, so the tree is no deeper than
`depth`. -/
def exportNode (boundary : ResourceId) : Nat → ResourceId → Query Declaration
  | 0, id => do return ⟨(← node id).exportHeader, []⟩
  | depth + 1, id => do
    let node ← node id
    if node.isModule then
      return ⟨node.exportHeader, ← node.children.mapM (exportNode boundary depth)⟩
    else
      return ⟨{ node.exportHeader with dependencies := ← exportDependencies boundary id }, []⟩

def exportModule (id : ResourceId) : Query Declaration := do
  let nodes ← nodes
  let module := nodes id
  if module.isRoot then throw .exportOfRoot
  let exported ← exportNode id (← depth) id
  match enclosing? nodes module with
  | none => return exported
  | some _ => ofExcept (exported.placedAt module.path.text)

end Query
end ResourceLibrary
