import ResourceLibrary.Library.Selection

/-!
What a resource is asked for from outside: its providers in a chosen order, its classpaths, the
resources that consume it, and references turned into artifact coordinates. Main statement: the
direct consumers of a resource are those that list it among their providers.
-/

namespace ResourceLibrary.Query

def providers (id : ResourceId) (scope : Scope) (expand sorted : Bool) :
    Query (List ResourceId) := do
  arranged (← tierProviders id scope expand none) scope sorted

def allProviders (id : ResourceId) (scope : Scope) (expand sorted : Bool) :
    Query (List ResourceId) := do
  arranged (← aggregatedProviders id scope expand true) scope sorted

def classpathType : String := "jar"

def classpath (id : ResourceId) (scope : Scope) : Query (List ResourceId) := do
  let sorted ← sort (← aggregatedProviders id scope true false) scope false
  let nodes ← nodes
  return sorted.filter fun id => (nodes id).produces classpathType

/-- Sorted producers of classpath entries that come in at a category, without those that lower tiers
bring in already. -/
def categoryClasspath (id : ResourceId) (category : Category) : Query (List ResourceId) := do
  let lower ← category.lowerTiers.mapM fun tier => tierProviders id .runtime true (some tier)
  let found ← tierProviders id .runtime true (some category)
  let nodes ← nodes
  let chosen := found.filter fun id =>
    !lower.flatten.contains id && (nodes id).produces classpathType
  sort chosen .runtime false

/-- Resources of the library, each with its providers at any tier. Asking again registers nothing
new, so one table serves a whole walk. -/
def provided : Query (List (ResourceId × List ResourceId)) := do
  let candidates ← selectIds Library.root everything false
  candidates.mapM fun candidate => return (candidate, ← aggregated candidate .test true)

def directConsumers (provided : List (ResourceId × List ResourceId)) (id : ResourceId) :
    List ResourceId :=
  (provided.filter (·.2.contains id)).map (·.1)

theorem mem_directConsumers {provided : List (ResourceId × List ResourceId)}
    {id consumer : ResourceId} :
    consumer ∈ directConsumers provided id ↔
      ∃ providers, (consumer, providers) ∈ provided ∧ id ∈ providers := by
  simp [directConsumers]

def consumers (id : ResourceId) (expand sorted : Bool) : Query (List ResourceId) := do
  let table ← provided
  let direct := directConsumers table id
  let found ←
    if expand then Walk.preOrder (← depth) (fun node => pure (directConsumers table node)) direct
    else pure direct
  arranged found .test sorted

def schemeOf (reference : String) : String :=
  match Text.cut? ':' reference.toList with
  | some (scheme, _) => String.ofList scheme
  | none => reference

/-- References under the schemes `resource` and `alias` turned into the coordinate of the product
they name. A reference under an artifact scheme must be a coordinate; all others stay. -/
def artifactReference (reference : String) : Query String := do
  let scheme := schemeOf reference
  if Coordinate.isScheme scheme then
    let _ ← ofExcept (Coordinate.parse reference)
    return reference
  if scheme ≠ "resource" && scheme ≠ "alias" then return reference
  let coordinate ← ofExcept (Coordinate.parseAny reference)
  let target ← node (← lookup Library.root coordinate.path)
  let product ← ofExcept (target.deliverable coordinate.kind)
  return (if scheme = "resource" then product.coordinate else product.linkCoordinate).text

end ResourceLibrary.Query
