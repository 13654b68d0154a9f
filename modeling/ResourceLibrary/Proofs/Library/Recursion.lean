import ResourceLibrary.Library.Consumption
import ResourceLibrary.Library.Export

/-!
Provider queries as functions that call one another, without a bound on the calls. A function is
given by its body, in which the calls stand for whatever they do; unfolding the bodies some levels
deep leaves the calls at the last level open. A call that does the same whatever the open calls do
has ended before it came to them.
-/

namespace ResourceLibrary

inductive Step
  | providers (scope : Scope)
  | modules (id : ResourceId) (origin : ResourcePath) (scope : Scope)
  | members (candidates : List ResourceId) (scope : Scope)

/-- Calls of the functions that find and sort providers. `visit` and `enter` are the steps of walks
in post-order and in pre-order, and `next` gives the neighbours in the former. -/
inductive Call
  | localProviders (id : ResourceId) (tier : Scope) (category : Option Category)
  | neededModules (module : ResourceId)
  | tierProviders (id : ResourceId) (scope : Scope) (expand : Bool) (category : Option Category)
  | aggregatedProviders (id : ResourceId) (scope : Scope) (expand withBuild : Bool)
  | expanded (providers : List ResourceId) (scope : Scope)
  | next (step : Step) (id : ResourceId)
  | visit (step : Step) (above : List ResourceId) (walk : Walk ResourceId) (id : ResourceId)
  | providerModules (id : ResourceId) (scope : Scope)
  | sort (candidates : List ResourceId) (scope : Scope) (strict : Bool)
  | directConsumers (id : ResourceId)
  | enter (order : List ResourceId) (id : ResourceId)
  | consumers (id : ResourceId) (expand sorted : Bool)
  | exportNode (boundary id : ResourceId)

namespace Call

abbrev Result : Call → Type
  | visit .. => Walk ResourceId
  | exportNode .. => Declaration
  | _ => List ResourceId

section
variable (self : (call : Call) → Query call.Result)
open Query (nodes node depth)

def walk (step : Step) (starts : List ResourceId) : Query (Walk ResourceId) :=
  starts.foldlM (fun walk id => self (visit step [] walk id)) .none

def closure (step : Step) (starts : List ResourceId) : Query (List ResourceId) := do
  return (← walk self step starts).order

def neighbours : Step → ResourceId → Query (List ResourceId)
  | .providers scope, id => self (aggregatedProviders id scope false (scope = .build))
  | .modules id origin scope, current => do
    let nodes ← nodes
    let node := nodes current
    if node.isAnonymous || (current ≠ id && origin.startsWith node.path) then return []
    let providers ← self (aggregatedProviders current scope false true)
    let nodes ← Query.nodes
    if node.isModule then
      return (childModules nodes node).foldl addNew providers
    return distinct <| providers.filterMap fun provider =>
      (enclosing? nodes (nodes provider)).bind fun parent =>
        if origin.startsWith parent.path then none else some parent.id
  | .members candidates scope, id => do
    let providers := (← self (aggregatedProviders id scope false true)).filter candidates.contains
    if (← node id).isModule then
      return ((← self (providerModules id scope)).filter candidates.contains).foldl addNew providers
    return providers

def everything : Query (List ResourceId) := do
  let modules ← self (sort (Query.modulesBelow (← nodes) (← depth) Library.root) .test false)
  let below ← modules.mapM (Query.selectLast true · "*")
  let here ← Query.selectLast true Library.root "*"
  return distinct (below.flatten ++ here)

def exportDependencies (boundary id : ResourceId) : Query (List Dependency) := do
  let found ← Category.exportOrder.mapM fun category => do
    let providers ← self (tierProviders id .runtime true (some category))
    let nodes ← nodes
    return (providers.map fun id => exportIncludes nodes boundary category (nodes id)).flatten
  let entries := found.flatten.foldl addInclude []
  return if entries.isEmpty then [] else [⟨.runtime, entries⟩]

def body : (call : Call) → Query call.Result
  | localProviders id tier category => do
    let found ← Query.declared id tier category
    let node ← node id
    if tier = .build && node.isModule && node.header.isSome && isImplicit category then
      return (← self (neededModules id)).foldl addNew found
    return found
  | neededModules module => do
    let module ← node module
    let plain ← module.children.filterM fun child => return !(← node child).isModule
    let found ← plain.mapM fun child => do
      let needed ← self (aggregatedProviders child .test true true)
      return (← needed.mapM (Query.outerModules module)).flatten
    return found.flatten
  | tierProviders id scope expand category => do
    let found ← self (localProviders id scope category)
    if expand then self (expanded found scope) else return found
  | aggregatedProviders id scope expand withBuild => do
    let found ← Query.gather (scope.tiers withBuild) fun tier =>
      self (tierProviders id tier false none)
    if expand then self (expanded found scope) else return found
  | expanded providers scope => closure self (.providers scope) providers
  | next step id => neighbours self step id
  | visit step above walk id =>
    if id ∈ above then pure (walk.recordCycle id above)
    else if id ∈ walk.order then pure walk
    else do
      let found ← self (next step id)
      let walk ← found.foldlM (fun walk other => self (visit step (id :: above) walk other)) walk
      pure (walk.leave id)
  | providerModules id scope => do
    let origin := (← node id).path
    let reached ← closure self (.modules id origin scope) [id]
    let nodes ← nodes
    return reached.filter fun module =>
      let node := nodes module
      node.isModule && !node.isAnonymous && !origin.startsWith node.path
  | sort candidates scope strict => do
    let walk ← walk self (.members candidates scope) candidates
    match strict, walk.cycles with
    | true, cycle :: _ =>
      let nodes ← nodes
      throw (.circularDependency (cycle.map fun id => (nodes id).path.text))
    | _, _ => return walk.order
  | directConsumers id => do
    let candidates ← everything self
    candidates.filterM fun candidate =>
      return (← self (aggregatedProviders candidate .test false true)).contains id
  | enter order id =>
    if id ∈ order then pure order
    else do
      let found ← self (directConsumers id)
      found.foldlM (fun order other => self (enter order other)) (order ++ [id])
  | consumers id expand sorted => do
    let direct ← self (directConsumers id)
    let found ← if expand then direct.foldlM (fun order other => self (enter order other)) []
      else pure direct
    if sorted then self (sort found .test false) else Query.arranged found .test false
  | exportNode boundary id => do
    let node ← node id
    if node.isModule then
      return ⟨node.exportHeader, ← node.children.mapM fun child => self (exportNode boundary child)⟩
    return ⟨{ node.exportHeader with dependencies := ← exportDependencies self boundary id }, []⟩

end

def isNeededModules : Call → Bool
  | neededModules _ => true
  | _ => false

/-- The bodies of calls some levels deep. `again` stands for what a search for needed modules does
that is begun while another one is under way, and `deeper` for the calls at the last level. -/
def unfold (again : ResourceId → Query (List ResourceId))
    (deeper : Bool → (call : Call) → Query call.Result) :
    Nat → Bool → (call : Call) → Query call.Result
  | 0, busy, call => deeper busy call
  | _ + 1, true, neededModules module => again module
  | levels + 1, busy, call =>
    body (unfold again deeper levels (busy || call.isNeededModules)) call

end Call
end ResourceLibrary
