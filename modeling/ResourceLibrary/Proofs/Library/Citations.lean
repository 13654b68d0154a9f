import ResourceLibrary.Proofs.Library.Forest
import ResourceLibrary.Proofs.Library.Session

/-!
Coordinates that the resources of a library cite. Main statement: a query registers nothing but
cited coordinates that were not met before, each once, with one resource for each.
-/

namespace ResourceLibrary
open Registry (Grows Reached)

/-- A resource of the library has this coordinate among its includes, with its properties put in. -/
def Library.Cites (library : Library) (urn : String) : Prop :=
  ∃ id < library.frozen.size, ∃ header dependency entry,
    (library.node .empty id).header = some header ∧ dependency ∈ header.dependencies ∧
      entry ∈ dependency.includes ∧ entry.mode = .uri ∧
      (library.node .empty id).properties.resolve entry.value = urn

theorem isModule_of_line (ground : Ground) {outer : List Header} {leaf : Header}
    (modules : ∀ header ∈ outer, header.isModule = true) {above : Node}
    (module : above.isModule = true) {id : ResourceId} {step : Nat} {node : Node}
    (inside : step ≤ outer.length)
    (here : (line ground above id (outer ++ [leaf]))[step]? = some node) :
    node.isModule = true := by
  induction outer generalizing above id step with
  | nil =>
    rw [List.length_nil, Nat.le_zero] at inside
    rw [inside] at here
    cases here
    rwa [Node.isModule_withChild]
  | cons header rest ih =>
    rw [List.cons_append, line] at here
    cases step with
    | zero =>
      cases here
      rwa [Node.isModule_withChild]
    | succ step =>
      have below : (header.node ground above id none).isModule = true := by
        have first := modules header (by simp)
        simp [Header.node, Node.isModule, first]
      exact ih (fun other member => modules other (by simp [member])) below
        (Nat.le_of_succ_le_succ inside) here

theorem lt_frozen_of_includes {library : Library} {registry : Registry}
    (reached : Reached library registry) {id : ResourceId} {header : Header}
    (stated : (library.node registry id).header = some header) {tier : Scope}
    {category : Option Category} {entry : Include}
    (member : entry ∈ header.includes tier category) : id < library.frozen.size := by
  refine Nat.lt_of_not_le fun behind => ?_
  obtain ⟨_, _, inside⟩ := reached.cover behind (Library.known_of_header stated)
  rw [(World.synthetic_of_within reached inside).bare.includes stated] at member
  cases member

theorem cites_of_includes {library : Library} {registry : Registry}
    (reached : Reached library registry) {id : ResourceId} {header : Header}
    (stated : (library.node registry id).header = some header) {tier : Scope}
    {category : Option Category} {entry : Include} (member : entry ∈ header.includes tier category)
    (mode : entry.mode = .uri) :
    library.Cites ((library.node registry id).properties.resolve entry.value) := by
  have frozen := lt_frozen_of_includes reached stated member
  have same := Library.node_eq_of_lt frozen .empty registry
  obtain ⟨⟨dependency, listed, _, inside⟩, _⟩ := Header.mem_includes_iff.mp member
  refine ⟨id, frozen, header, dependency, entry, ?_, listed, inside, mode, ?_⟩
  · rw [same, stated]
  · rw [same]

namespace Registry
variable {library : Library} {before after : Registry}

inductive Cited (library : Library) (before : Registry) : Registry → Prop
  | batch {urn : String} {coordinate : Coordinate} (properties : Properties)
    (cites : library.Cites urn) (fresh : before.urns.lookup urn = none)
    (read : Coordinate.parse urn = .ok coordinate) :
    Cited library before (before.withBatch library urn coordinate properties)

/-- Cited coordinates are registered one after the other. -/
def Gathers (library : Library) : Registry → Registry → Prop :=
  Relation.ReflTransGen (Cited library)

theorem Gathers.grows (gathers : Gathers library before after) : Grows library before after := by
  refine Relation.ReflTransGen.mono (fun first second step => ?_) _ _ gathers
  obtain ⟨properties, _, fresh, read⟩ := step
  exact .batch properties fresh read

theorem Gathers.eq (gathers : Gathers library before after)
    (met : ∀ urn, library.Cites urn → before.urns.lookup urn ≠ none) : after = before := by
  rcases Relation.ReflTransGen.cases_head gathers with same | ⟨middle, step, _⟩
  · exact same.symm
  · obtain ⟨_, cites, fresh, _⟩ := step
    exact absurd fresh (met _ cites)

theorem Cited.leaf (step : Cited library before after) {leaf : ResourceId}
    (fresh : before.next library ≤ leaf) (known : leaf < after.next library)
    (plain : (library.node after leaf).isModule = false) :
    ∃ urn, library.Cites urn ∧ before.urns.lookup urn = none ∧
      after.urns.lookup urn = some leaf := by
  obtain ⟨properties, cites, unmet, read⟩ := step
  rename_i urn coordinate
  refine ⟨urn, cites, unmet, ?_⟩
  have stored := stored_withBatch library before read properties
  obtain ⟨step, rfl⟩ := Nat.le.dest fresh
  rw [next_withBatch] at known
  have inside : step ≤ coordinate.names.length := by
    unfold ResourceId at *
    omega
  have last : step = coordinate.names.length := by
    refine Decidable.byContradiction fun away => ?_
    have module := isModule_of_line library.ground
      (fun header member => Coordinate.isModule_of_mem_modules member)
      (rfl : (Node.root (before.next library) library.ground.properties).isModule = true) ?_
      (stored.nodes step inside)
    · rw [module] at plain
      cases plain
    · rw [List.length_map]
      simp only [Coordinate.names, List.length_append, List.length_singleton] at inside away
      omega
  rw [lookup_withBatch, if_pos rfl, last]

theorem Gathers.leaf (gathers : Gathers library before after) {leaf : ResourceId}
    (fresh : before.next library ≤ leaf) (known : leaf < after.next library)
    (plain : (library.node after leaf).isModule = false) :
    ∃ urn, library.Cites urn ∧ before.urns.lookup urn = none ∧
      after.urns.lookup urn = some leaf := by
  induction gathers with
  | refl => exact absurd known (Nat.not_lt.mpr fresh)
  | @tail middle after steps step ih =>
    have earlier : Grows library before middle := Gathers.grows steps
    have grows : Grows library middle after := Gathers.grows (.single step)
    by_cases old : leaf < middle.next library
    · rw [grows.node old] at plain
      obtain ⟨urn, cites, unmet, found⟩ := ih old plain
      exact ⟨urn, cites, unmet, grows.lookup found⟩
    · obtain ⟨urn, cites, unmet, found⟩ := step.leaf (Nat.le_of_not_lt old) known plain
      refine ⟨urn, cites, ?_, found⟩
      cases met : before.urns.lookup urn with
      | none => rfl
      | some other =>
        rw [earlier.lookup met] at unmet
        cases unmet

end Registry

namespace Query
variable {library : Library}
open Registry (Gathers)

def Citing (library : Library) (before after : Registry) : Prop :=
  Reached library before → Gathers library before after

instance (library : Library) : Faulting fun _ => Citing library where
  refl _ _ := .refl
  fault _ _ := .refl
  trans first second reached :=
    Relation.ReflTransGen.trans (first reached) (second (reached.grows (first reached).grows))

theorem citing_included {node : Node} {scope : Scope} {category : Option Category} {entry : Include}
    (cites : entry.mode = .uri → library.Cites (node.properties.resolve entry.value)) :
    Moving library (fun _ => Citing library) (included node scope category entry) := by
  unfold included
  split
  · next mode =>
    have asked : Moving library (fun _ => Citing library)
        (anonymous (node.properties.resolve entry.value) entry.properties) := by
      intro registry _
      rw [answer_anonymous]
      split
      · exact .refl
      · next fresh read => exact .single (.batch _ (cites mode) fresh read)
      · exact .refl
    exact moving_mapFailure asked _
  · refine moving_bind moving_nodes fun _ => ?_
    exact moving_mapFailure (moving_lookup _ _) _

theorem citing_declared (id : ResourceId) (tier : Scope) (category : Option Category) :
    Moving library (fun _ => Citing library) (declared id tier category) := by
  intro registry reached
  rw [declared, answer_bind, answer_node]
  simp only
  cases stated : (library.node registry id).header with
  | none => exact .refl
  | some header =>
    have named : Moving library (fun _ => Citing library) ((header.includes tier category).mapM
        (included (library.node registry id) tier category)) :=
      moving_mapM fun entry member => citing_included fun mode =>
        cites_of_includes reached stated member mode
    have rest : ∀ found : List ResourceId, Moving library (fun _ => Citing library)
        (pure (distinct (found ++
        if tier = .runtime && isImplicit category then (library.node registry id).children
        else []))) := fun _ => moving_pure _
    exact moving_bind named rest registry reached

instance (library : Library) : ProviderCourse library fun _ => Citing library := ⟨citing_declared⟩

end Query

open Registry (Gathers) in
/-- Requests other than for a coordinate register only what is cited. -/
theorem Request.gathers {library : Library} {registry : Registry}
    (reached : Reached library registry) {request : Request} (included : ¬request.Registers) :
    Gathers library registry (request.perform.answer library registry).2 := by
  have moving : Query.Moving library (fun _ => Query.Citing library) request.perform :=
    Request.moving included
  exact moving registry reached

end ResourceLibrary
