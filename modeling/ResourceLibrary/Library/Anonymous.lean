import ResourceLibrary.Library.Basic

/-!
Anonymous resources, known by an artifact coordinate alone. The first use of a coordinate registers
a resource at the coordinate's path, in modules of its own; every later use finds that resource.
-/

namespace ResourceLibrary

namespace Coordinate

def modules (coordinate : Coordinate) : List String :=
  (Text.split '/' coordinate.group).filter (· != "")

def enclosingHeader (coordinate : Coordinate) (name : String) : Header :=
  { Header.of .module name with version := coordinate.version, classifier := .anonymous }

def declaration (coordinate : Coordinate) (properties : Properties) : Declaration :=
  coordinate.modules.foldr (fun name inner => ⟨coordinate.enclosingHeader name, [inner]⟩)
    (.anonymous coordinate.scheme coordinate.name coordinate.version coordinate.kind properties)

end Coordinate

namespace Registry

def register (library : Library) (registry : Registry) (urn : String) (properties : Properties) :
    Except Failure (ResourceId × Registry) := do
  let coordinate ← Coordinate.parse urn
  let path ← ResourcePath.parse coordinate.path
  let start := Arena.start library.ground (library.frozen.size + registry.nodes.size)
  let (_, arena) ← start.add library.ground start.root (coordinate.declaration properties)
  match arena.find? arena.root path with
  | some id => .ok (id, ⟨registry.nodes ++ arena.nodes, (urn, id) :: registry.urns⟩)
  | none => .error (.resourceNotFound path.text)

end Registry

namespace Query

/-- Number of the resource of a coordinate. The properties count only for its first use. -/
def anonymous (urn : String) (properties : Properties) : Query ResourceId := do
  let registry ← get
  match registry.urns.lookup urn with
  | some id => return id
  | none =>
    let (id, grown) ← ofExcept (registry.register (← read) urn properties)
    set grown
    return id

end Query
end ResourceLibrary
