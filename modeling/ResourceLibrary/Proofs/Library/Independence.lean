import ResourceLibrary.Proofs.Library.ExportAgreement
import ResourceLibrary.Proofs.Library.Session

/-!
Answers do not depend on what was asked before. Main statement: after any two sessions a request for
frozen resources fails alike or is answered alike, up to the numbers of registered resources.
-/

namespace ResourceLibrary

/-- The same resource in two sessions: a frozen one, or the one of a coordinate. -/
def SameResource (library : Library) (left right : Registry) (i j : ResourceId) : Prop :=
  i = j ∧ i < library.frozen.size ∨
    ∃ urn, left.urns.lookup urn = some i ∧ right.urns.lookup urn = some j

namespace Request

def subjects : Request → List ResourceId
  | resource start _ | module start _ => [start]
  | providers id .. | allProviders id .. | classpath id _ | categoryClasspath id _
  | consumers id .. | allModules id | select id .. | locate id _ | exportModule id => [id]
  | sort candidates _ => candidates
  | anonymous .. | artifactReference _ | selectBasedir .. => []

def origins : Request → List ResourceId
  | resource start _ | module start _ | exportModule start => [start]
  | _ => []

theorem origins_subset (request : Request) : request.origins ⊆ request.subjects := by
  cases request <;> first | exact List.nil_subset _ | exact List.Subset.refl _

/-- Whether the resources in the answer are sorted by dependencies, not just by paths. -/
def isSorted : Request → Bool
  | providers _ _ _ sorted | allProviders _ _ _ sorted | consumers _ _ sorted
  | select _ _ _ sorted => sorted
  | _ => true

end Request

namespace Answer

/-- Lists of the same resources, shown alike: in the same order, or else with the same paths in the
same order. -/
def SameList (library : Library) (left right : Registry) (sorted : Bool)
    (xs ys : List ResourceId) : Prop :=
  let texts := fun registry (ids : List ResourceId) =>
    ids.map fun id => (library.node registry id).text
  let paths := fun registry (ids : List ResourceId) =>
    ids.map fun id => (library.node registry id).path
  paths left xs = paths right ys ∧
    if sorted then List.Forall₂ (SameResource library left right) xs ys ∧
      texts left xs = texts right ys
    else (∃ zs, List.Forall₂ (SameResource library left right) xs zs ∧ zs.Perm ys) ∧
      (texts left xs).Perm (texts right ys)

/-- Answers that say the same of a library, with the registries that they were left with. -/
def Corresponds (library : Library) (left right : Registry) (sorted : Bool) :
    Answer → Answer → Prop
  | resource i, resource j => SameResource library left right i j
  | resources xs, resources ys => SameList library left right sorted xs ys
  | text a, text b => a = b
  | declaration a, declaration b => a = b
  | _, _ => False

def Like {library : Library} (base : World library) (sorted : Bool) (world : World library) :
    Answer → Answer → Prop
  | resource i, resource j => base.Near world i j
  | resources xs, resources ys => World.Arranged base.Near sorted world xs ys
  | text a, text b => a = b
  | declaration a, declaration b => a = b
  | _, _ => False

end Answer

namespace World
variable {library : Library} {world : World library} {i j : ResourceId}

def blank (library : Library) : World library := ⟨.empty, .empty, .refl, .refl⟩

theorem blank_later (world : World library) : (blank library).Later world :=
  ⟨world.leftReached, world.rightReached⟩

theorem sameResource_of_near (near : (blank library).Near world i j) :
    SameResource library world.left world.right i j := by
  rcases near with (frozen | ⟨_, _, inside, _⟩) | leaf
  · exact .inl frozen
  · exact absurd inside Registry.not_within_empty
  · exact .inr leaf

section
variable (tree : library.arena.IsTree)
include tree

theorem map_eq_of_near {β : Type} {shown : Node → β}
    (common : ∀ {a b : Node}, a.Alike world.Same b → shown a = shown b) {xs ys : List ResourceId}
    (related : List.Forall₂ ((blank library).Near world) xs ys) :
    xs.map (fun id => shown (library.node world.left id)) =
      ys.map fun id => shown (library.node world.right id) := by
  rw [← List.forall₂_eq_eq_eq]
  exact List.rel_map (fun _ _ near => common (near.alike tree (blank_later world))) related

theorem sameList_of_arranged {sorted : Bool} {xs ys : List ResourceId}
    (both : Arranged (blank library).Near sorted world xs ys) :
    Answer.SameList library world.left world.right sorted xs ys := by
  cases sorted with
  | true =>
    have related : List.Forall₂ ((blank library).Near world) xs ys := both
    have paths := map_eq_of_near tree Node.Alike.path related
    have texts := map_eq_of_near tree Node.Alike.text related
    exact ⟨paths, related.imp fun _ _ => sameResource_of_near, texts⟩
  | false =>
    obtain ⟨⟨zs, related, same⟩, ordered⟩ := both
    have texts := map_eq_of_near tree Node.Alike.text related
    refine ⟨ordered, ⟨zs, related.imp fun _ _ => sameResource_of_near, same⟩, ?_⟩
    simp only
    rw [texts]
    exact same.map _

theorem corresponds_of_like {sorted : Bool} {a b : Answer}
    (like : Answer.Like (blank library) sorted world a b) :
    Answer.Corresponds library world.left world.right sorted a b := by
  cases a <;> cases b <;> try exact like.elim
  case resource => exact sameResource_of_near like
  case resources => exact sameList_of_arranged tree like
  case text => exact like
  case declaration => exact like

end

end World

namespace Query
open World
variable {library : Library} {world base : World library}

theorem agree_resource {query other : Query ResourceId} (agree : Agree world base.Near query other)
    (sorted : Bool) :
    Agree world (Answer.Like base sorted) (do return .resource (← query))
      (do return .resource (← other)) := by
  apply agree_bind agree
  intro later _ i j near
  exact agree_pure near

theorem agree_resources {sorted : Bool} {query other : Query (List ResourceId)}
    (agree : Agree world (Arranged base.Near sorted) query other) :
    Agree world (Answer.Like base sorted) (do return .resources (← query))
      (do return .resources (← other)) := by
  apply agree_bind agree
  intro later _ xs ys both
  exact agree_pure both

theorem agree_perform (tree : library.arena.IsTree) (since : base.Later world) (request : Request)
    (known : ∀ id ∈ request.subjects, base.Same id id)
    (frozen : ∀ id ∈ request.origins, id < library.frozen.size) :
    Agree world (Answer.Like base request.isSorted) request.perform request.perform := by
  have same : ∀ {id}, request.subjects = [id] → base.Same id id :=
    fun alone => known _ (by simp [alone])
  have near : ∀ {id}, request.subjects = [id] → base.Near world id id :=
    fun alone => .inl (same alone)
  cases request
  case anonymous urn properties =>
    refine agree_resource ((agree_anonymous world urn properties properties).imp ?_) _
    exact fun _ _ _ _ leaf => .inr leaf
  case resource start reference =>
    refine agree_resource ((agree_lookup tree world (frozen start (by simp [Request.origins]))
      reference).imp ?_) _
    rintro later _ i _ ⟨rfl, inside⟩
    exact .inl (base.same_of_lt inside)
  case module start reference =>
    refine agree_resource ((agree_lookupModule tree world
      (frozen start (by simp [Request.origins])) reference).imp ?_) _
    rintro later _ i _ ⟨rfl, inside⟩
    exact .inl (base.same_of_lt inside)
  case providers id scope expand sorted =>
    exact agree_resources (agree_providers tree since (near rfl) scope expand sorted)
  case allProviders id scope expand sorted =>
    exact agree_resources (agree_allProviders tree since (near rfl) scope expand sorted)
  case classpath id scope =>
    exact agree_resources (agree_classpath tree since (near rfl) scope)
  case categoryClasspath id category =>
    exact agree_resources (agree_categoryClasspath tree since (near rfl) category)
  case consumers id expand sorted =>
    exact agree_resources (agree_consumers tree since (near rfl) expand sorted)
  case artifactReference reference =>
    apply agree_bind (agree_artifactReference tree world reference)
    rintro _ _ text _ rfl
    exact agree_pure rfl
  case allModules id =>
    refine agree_resources ((agree_allModules tree since (same rfl) false).imp ?_)
    exact fun _ _ _ _ both => both.imp fun _ _ => .inl
  case select id criteria onlyLocal sorted =>
    exact agree_resources (agree_select tree since (same rfl) criteria onlyLocal sorted)
  case selectBasedir place includeSelf =>
    exact agree_resources (agree_selectBasedir tree since place includeSelf)
  case locate id place =>
    exact agree_resource (agree_locate tree since (same rfl) place) _
  case sort candidates strict =>
    refine agree_resources (agree_sort_near tree since ?_ .test strict)
    exact List.forall₂_same.mpr fun id member => .inl (known id member)
  case exportModule id =>
    apply agree_bind (agree_exportModule tree world (frozen id (by simp [Request.origins])))
    rintro _ _ declaration _ rfl
    exact agree_pure rfl

end Query

namespace Library

/-- After any two sessions a request for frozen resources fails in the same way, or has answers that
correspond. -/
theorem answer_after_sessions {settings : Settings} {host : Host} {load : ImportLoader}
    {catalog : Catalog} {library : Library}
    (built : build settings host load catalog = .ok library) (first second : List Request)
    (request : Request) (frozen : ∀ id ∈ request.subjects, id < library.frozen.size) :
    (∃ failure left right,
      request.perform.answer library (library.after first) = (.error failure, left) ∧
      request.perform.answer library (library.after second) = (.error failure, right)) ∨
    ∃ a b left right,
      request.perform.answer library (library.after first) = (.ok a, left) ∧
      request.perform.answer library (library.after second) = (.ok b, right) ∧
      Answer.Corresponds library left right request.isSorted a b := by
  have tree := isTree_of_build built
  let world : World library := ⟨library.after first, library.after second,
    library.reached_after first, library.reached_after second⟩
  have agree := Query.agree_perform tree world.blank_later request
    (fun id member => (World.blank library).same_of_lt (frozen id member))
    (fun id member => frozen id (request.origins_subset member))
  obtain ⟨later, _, ⟨a, b, left, right, like⟩ | ⟨failure, left, right⟩⟩ := agree
  · exact .inr ⟨a, b, later.left, later.right, left, right, World.corresponds_of_like tree like⟩
  · exact .inl ⟨failure, later.left, later.right, left, right⟩

def citing : Catalog :=
  Catalog.empty.withResource ((Declaration.module "tools").withNested
    ((Declaration.resource "editor").withInclude .runtime (.of .uri "artifact:jar:org/lib#1")))

theorem answer_after_sessions_citing :
    ∃ library left right, build (.ofRoot ⟨"/"⟩) "now" .none citing = .ok library ∧
      let request := Request.providers 2 .runtime false true
      request.perform.answer library (library.after []) = (.ok (.resources [5]), left) ∧
      request.perform.answer library (library.after [.anonymous "artifact:jar:org/tool#1" ∅]) =
        (.ok (.resources [8]), right) ∧
      Answer.Corresponds library left right true (.resources [5]) (.resources [8]) := by
  let request := Request.providers 2 .runtime false true
  obtain ⟨library, built, size, ⟨_, left, first⟩, _, right, second⟩ : ∃ library,
      build (.ofRoot ⟨"/"⟩) "now" .none citing = .ok library ∧ library.frozen.size = 3 ∧
      library.Answered [request] 0 request (.resources [5]) ∧
      library.Answered [.anonymous "artifact:jar:org/tool#1" ∅, request] 1 request
        (.resources [8]) :=
    ⟨_, rfl, rfl, answered_of_shown rfl rfl (by decide +kernel),
      answered_of_shown rfl rfl (by decide +kernel)⟩
  have frozen : ∀ id ∈ request.subjects, id < library.frozen.size := by
    intro id member
    rw [size, List.mem_singleton.mp member]
    decide
  refine ⟨library, left, right, built, first, second, ?_⟩
  rcases answer_after_sessions built [] [.anonymous "artifact:jar:org/tool#1" ∅] request frozen with
    ⟨_, _, _, failed, _⟩ | ⟨a, b, _, _, answered, again, alike⟩
  · cases first.symm.trans failed
  · cases first.symm.trans answered
    cases second.symm.trans again
    exact alike

end Library
end ResourceLibrary
