import ResourceLibrary.Proofs.Library.Effects

/-!
Sessions: requests to a library, one after the other, some of which may fail. Main statement: a
registry only grows, whatever is asked for.
-/

namespace ResourceLibrary

inductive Request
  | anonymous (urn : String) (properties : Properties)
  | resource (start : ResourceId) (reference : String)
  | module (start : ResourceId) (reference : String)
  | providers (id : ResourceId) (scope : Scope) (expand sorted : Bool)
  | allProviders (id : ResourceId) (scope : Scope) (expand sorted : Bool)
  | classpath (id : ResourceId) (scope : Scope)
  | categoryClasspath (id : ResourceId) (category : Category)
  | consumers (id : ResourceId) (expand sorted : Bool)
  | artifactReference (reference : String)
  | allModules (id : ResourceId)
  | select (id : ResourceId) (criteria : String) (onlyLocal sorted : Bool)
  | selectBasedir (base : FilePath) (includeSelf : Bool)
  | locate (id : ResourceId) (base : FilePath)
  | sort (candidates : List ResourceId) (strict : Bool)
  | exportModule (id : ResourceId)

inductive Answer
  | resource (id : ResourceId)
  | resources (ids : List ResourceId)
  | text (text : String)
  | declaration (declaration : Declaration)

def Request.perform : Request → Query Answer
  | anonymous urn properties => return .resource (← Query.anonymous urn properties)
  | resource start reference => return .resource (← Query.lookup start reference)
  | module start reference => return .resource (← Query.lookupModule start reference)
  | providers id scope expand sorted =>
    return .resources (← Query.providers id scope expand sorted)
  | allProviders id scope expand sorted =>
    return .resources (← Query.allProviders id scope expand sorted)
  | classpath id scope => return .resources (← Query.classpath id scope)
  | categoryClasspath id category => return .resources (← Query.categoryClasspath id category)
  | consumers id expand sorted => return .resources (← Query.consumers id expand sorted)
  | artifactReference reference => return .text (← Query.artifactReference reference)
  | allModules id => return .resources (← Query.allModules id false)
  | select id criteria onlyLocal sorted =>
    return .resources (← Query.select id criteria onlyLocal sorted)
  | selectBasedir base includeSelf => return .resources (← Query.selectBasedir base includeSelf)
  | locate id base => return .resource (← Query.locate id base)
  | sort candidates strict => return .resources (← Query.sort candidates .test strict)
  | exportModule id => return .declaration (← Query.exportModule id)

def Request.Registers (request : Request) : Prop :=
  ∃ urn properties, request = .anonymous urn properties

open Query in
theorem Request.moving {library : Library} {rel : Bool → Registry → Registry → Prop}
    [ProviderCourse library rel] [Faulting rel] {request : Request} (included : ¬request.Registers) :
    Moving library rel request.perform := by
  cases request
  case anonymous urn properties => exact absurd ⟨urn, properties, rfl⟩ included
  case resource => exact moving_bind (moving_lookup _ _) fun _ => moving_pure _
  case module => exact moving_bind (moving_lookupModule _ _) fun _ => moving_pure _
  case providers => exact moving_bind (moving_providers _ _ _ _) fun _ => moving_pure _
  case allProviders => exact moving_bind (moving_allProviders _ _ _ _) fun _ => moving_pure _
  case classpath => exact moving_bind (moving_classpath _ _) fun _ => moving_pure _
  case categoryClasspath =>
    exact moving_bind (moving_categoryClasspath _ _) fun _ => moving_pure _
  case consumers => exact moving_bind (moving_consumers _ _ _) fun _ => moving_pure _
  case artifactReference =>
    exact moving_bind (moving_artifactReference _) fun _ => moving_pure _
  case allModules => exact moving_bind (moving_allModules _ _) fun _ => moving_pure _
  case select => exact moving_bind (moving_select _ _ _ _) fun _ => moving_pure _
  case selectBasedir => exact moving_bind (moving_selectBasedir _ _) fun _ => moving_pure _
  case locate => exact moving_bind (moving_locate _ _) fun _ => moving_pure _
  case sort => exact moving_bind (moving_anySort _ _ _) fun _ => moving_pure _
  case exportModule => exact moving_bind (moving_exportModule _) fun _ => moving_pure _

open Query in
theorem Request.growing (request : Request) : Growing request.perform := by
  by_cases registers : request.Registers
  · obtain ⟨urn, properties, rfl⟩ := registers
    exact growing_bind (growing_anonymous urn properties) fun _ => growing_pure _
  · exact fun _ => Request.moving registers

namespace Library

def afterFrom (library : Library) (registry : Registry) (requests : List Request) : Registry :=
  requests.foldl (fun registry request => (request.perform.answer library registry).2) registry

def after (library : Library) (requests : List Request) : Registry :=
  library.afterFrom .empty requests

theorem after_append (library : Library) (requests more : List Request) :
    library.after (requests ++ more) = library.afterFrom (library.after requests) more :=
  List.foldl_append

theorem grows_afterFrom (library : Library) (registry : Registry) (requests : List Request) :
    Registry.Grows library registry (library.afterFrom registry requests) := by
  induction requests generalizing registry with
  | nil => exact .refl
  | cons request rest ih => exact (request.growing library registry).trans (ih _)

theorem grows_after_take (library : Library) (session : List Request) (place : Nat) :
    Registry.Grows library (library.after (session.take place)) (library.after session) := by
  have grows := library.grows_afterFrom (library.after (session.take place)) (session.drop place)
  rwa [← after_append, List.take_append_drop] at grows

theorem reached_after (library : Library) (requests : List Request) :
    Registry.Reached library (library.after requests) :=
  library.grows_afterFrom .empty requests

theorem after_anonymous (library : Library) {urn : String} {coordinate : Coordinate}
    (read : Coordinate.parse urn = .ok coordinate) (properties : Properties) :
    library.after [.anonymous urn properties] =
      Registry.empty.withBatch library urn coordinate properties := by
  have fresh : Registry.empty.urns.lookup urn = none := rfl
  have asked := Query.answer_anonymous urn properties library .empty
  rw [fresh, read] at asked
  rw [after, afterFrom, List.foldl_cons, List.foldl_nil, Request.perform, Query.answer_bind, asked]
  rfl

/-- A session asks this at a place, and has this answer there. -/
def Answered (library : Library) (session : List Request) (place : Nat) (request : Request)
    (answer : Answer) : Prop :=
  session[place]? = some request ∧ ∃ grown,
    request.perform.answer library (library.after (session.take place)) = (.ok answer, grown)

theorem answered_of_shown {library : Library} {session : List Request} {place : Nat}
    {request : Request} {query : Query (List ResourceId)} {ids : List ResourceId}
    (there : session[place]? = some request)
    (asks : request.perform = do return .resources (← query))
    (shown : (query.answer library (library.after (session.take place))).1.toOption = some ids) :
    library.Answered session place request (.resources ids) := by
  refine ⟨there, ?_⟩
  rw [asks, Query.answer_bind]
  generalize query.answer library (library.after (session.take place)) = reply at shown ⊢
  rcases reply with ⟨_ | found, grown⟩
  · cases shown
  · cases shown
    exact ⟨grown, rfl⟩

theorem grows_of_place (library : Library) {session : List Request} {place : Nat}
    {request : Request} (there : session[place]? = some request) :
    Registry.Grows library
      (request.perform.answer library (library.after (session.take place))).2
      (library.after session) := by
  have whole : session.take place ++ request :: session.drop (place + 1) = session := by
    obtain ⟨inside, rfl⟩ := List.getElem?_eq_some_iff.mp there
    rw [List.getElem_cons_drop, List.take_append_drop]
  have rest := library.after_append (session.take place) (request :: session.drop (place + 1))
  rw [whole, afterFrom, List.foldl_cons] at rest
  rw [rest]
  exact library.grows_afterFrom _ _

end Library

end ResourceLibrary
