import ResourceLibrary.Proofs.Library.Citations
import ResourceLibrary.Proofs.Library.Consumers
import ResourceLibrary.Proofs.Library.Noting
import ResourceLibrary.Proofs.Library.Recursion

/-!
Provider queries return: below a number of levels that grows with the nodes known no call is left
open, and a search for needed modules is not begun while another one is under way. Such a search
starts from plain resources and goes on above BUILD, where no module asks for what it needs.
-/

namespace ResourceLibrary
open Registry (Grows Reached)
open Call (unfold body walk)

namespace Query
variable {α : Type} {library : Library} {registry : Registry}

section
variable (again : ResourceId → Query (List ResourceId))
  (deeper : Bool → (call : Call) → Query call.Result) {levels : Nat} {busy : Bool}

theorem unfold_succ {call : Call} (plain : call.isNeededModules = false) (levels : Nat)
    (busy : Bool) :
    unfold again deeper (levels + 1) busy call = body (unfold again deeper levels busy) call := by
  cases call <;> first | (cases busy <;> rfl) | cases plain

theorem unfold_neededModules (module : ResourceId) (levels : Nat) :
    unfold again deeper (levels + 1) false (.neededModules module) =
      body (unfold again deeper levels true) (.neededModules module) := rfl

variable {again deeper}

theorem like_of_body {call : Call} {query : Query call.Result} (high : 0 < levels)
    (plain : call.isNeededModules = false)
    (like : Like library registry (body (unfold again deeper (levels - 1) busy) call) query) :
    Like library registry (unfold again deeper levels busy call) query := by
  obtain ⟨lower, rfl⟩ : ∃ lower, levels = lower + 1 := ⟨levels - 1, by omega⟩
  rwa [unfold_succ again deeper plain]

theorem like_localProviders {id : ResourceId} {tier : Scope} {category : Option Category}
    (high : 1 ≤ levels)
    (needed : tier = .build → ∀ after, Grows library registry after →
      (library.node after id).isModule = true →
        Like library after (unfold again deeper (levels - 1) busy (.neededModules id))
          (neededModules (library.node after id))) :
    Like library registry (unfold again deeper levels busy (.localProviders id tier category))
      (localProviders id tier category) := by
  refine like_of_body high rfl ?_
  rw [body, localProviders]
  refine like_bind (.refl _) fun found grown given => ?_
  have since := (growing_declared id tier category).grows given
  refine like_bind (.refl _) fun node last asked => ?_
  cases asked
  split
  · next implicit =>
    simp only [Bool.and_eq_true, decide_eq_true_eq] at implicit
    obtain ⟨⟨⟨build, module⟩, _⟩, _⟩ := implicit
    exact like_bind (needed build grown since module) fun _ _ _ => .refl _
  · exact .refl _

theorem like_aggregatedProviders {id : ResourceId} {scope : Scope} {expand withBuild : Bool}
    (high : 3 ≤ levels)
    (each : ∀ tier ∈ scope.tiers withBuild, ∀ after, Grows library registry after →
      Like library after (unfold again deeper (levels - 2) busy (.localProviders id tier none))
        (localProviders id tier none))
    (further : expand = true → ∀ found grown,
      (aggregated id scope withBuild).answer library registry = (.ok found, grown) →
        Like library grown (unfold again deeper (levels - 1) busy (.expanded found scope))
          (expanded found scope)) :
    Like library registry
      (unfold again deeper levels busy (.aggregatedProviders id scope expand withBuild))
      (aggregatedProviders id scope expand withBuild) := by
  refine like_of_body (by omega) rfl ?_
  rw [body]
  refine like_bind (like_gather (growing_localProviders id · none) ?_) fun found grown given => ?_
  · intro tier member after since
    refine like_of_body (by omega) rfl ?_
    rw [body]
    simp only [Bool.false_eq_true, if_false, bind_pure]
    exact each tier member after since
  · cases expand with
    | false => exact .refl _
    | true => exact further rfl found grown given

theorem aggregatedProviders_of_not_expand (id : ResourceId) (scope : Scope) (withBuild : Bool) :
    aggregatedProviders id scope false withBuild = aggregated id scope withBuild := by
  simp [aggregatedProviders]

theorem like_aggregated_of_not_build {id : ResourceId} {scope : Scope} {withBuild : Bool}
    (high : 3 ≤ levels) (above : ∀ tier ∈ scope.tiers withBuild, tier ≠ .build) :
    Like library registry
      (unfold again deeper levels busy (.aggregatedProviders id scope false withBuild))
      (aggregated id scope withBuild) := by
  rw [← aggregatedProviders_of_not_expand]
  refine like_aggregatedProviders high (fun tier member after since => ?_) nofun
  exact like_localProviders (by omega) fun build => absurd build (above tier member)

section
variable {start : Registry} {inside : Registry → ResourceId → Prop} {step : Step}
  {next : ResourceId → Query (List ResourceId)} (steady : Steady library start inside next)
  (height : Nat) (asks : ∀ levels before id, height ≤ levels → Grows library start before →
    inside before id → Like library before (unfold again deeper levels busy (.next step id)) (next id))
include steady asks

/-- A walk that is not bounded: the nodes on the way are different and known, which leaves no way
longer than the bound. -/
theorem like_visit (room : Nat) {depth : Nat} (bound : room ≤ depth) {above : List ResourceId}
    (single : above.Nodup) (opened : ∀ id ∈ above, id < start.next library)
    (space : start.next library < room + above.length) (high : height + room ≤ levels)
    {before : Registry} (since : Grows library start before) {id : ResourceId}
    (here : inside before id) (walk : Walk ResourceId) :
    Like library before (unfold again deeper levels busy (.visit step above walk id))
      (Walk.visit next depth above walk id) := by
  induction room generalizing depth above levels before id walk with
  | zero =>
    have inside : above ⊆ List.range (start.next library) :=
      fun id member => List.mem_range.mpr (opened id member)
    have crowded := single.length_le_of_subset inside
    rw [List.length_range] at crowded
    unfold ResourceId at *
    omega
  | succ room ih =>
    obtain ⟨lower, rfl⟩ : ∃ lower, depth = lower + 1 := ⟨depth - 1, by omega⟩
    refine like_of_body (by omega) rfl ?_
    rw [body, Walk.visit]
    split
    · exact .refl _
    · next closed =>
      split
      · exact .refl _
      · next fresh =>
        refine like_bind (asks _ before id (by omega) since here) fun ids grown given => ?_
        have grows := (steady.growing id).grows given
        refine like_bind (like_foldlM (growing_visit steady.growing lower (id :: above)) ?_ walk)
          fun _ _ _ => .refl _
        intro other member walk after onward
        have known := steady.known since here given (List.ne_nil_of_mem member)
        have inner := steady.stays since here given other member
        refine ih (by omega) (List.nodup_cons.mpr ⟨closed, single⟩) ?_ ?_ (by omega)
          (since.trans (grows.trans onward)) (steady.lasts onward inner) walk
        · intro node among
          rcases List.mem_cons.mp among with rfl | outer
          · exact known
          · exact opened node outer
        · rw [List.length_cons]
          unfold ResourceId at *
          omega

theorem like_walk {depth : Nat} (deep : start.next library < depth) (high : height + depth ≤ levels)
    {starts : List ResourceId} {before : Registry} (since : Grows library start before)
    (here : ∀ id ∈ starts, inside before id) :
    Like library before (walk (unfold again deeper levels busy) step starts)
      (Walk.postOrder (before.next library + 1) next starts) := by
  refine like_foldlM (growing_visit steady.growing _ []) ?_ Walk.none
  intro id member walk after onward
  have later := since.next_le
  unfold ResourceId at *
  exact like_visit steady height asks (start.next library + 1) (by omega) .nil (by simp) (by simp)
    (by omega) (since.trans onward) (steady.lasts onward (here id member)) walk

theorem like_closure {depth : Nat} (deep : start.next library < depth)
    (high : height + depth ≤ levels) {starts : List ResourceId} {before : Registry}
    (since : Grows library start before) (here : ∀ id ∈ starts, inside before id) :
    Like library before (Call.closure (unfold again deeper levels busy) step starts)
      (closure starts next) := by
  rw [Call.closure, closure]
  refine Like.symm ?_
  unfold Like
  rw [answer_bind, answer_depth]
  exact Eq.symm (like_bind (like_walk steady height asks deep high since here) fun _ _ _ => .refl _)

end

section
variable {start : Registry} (tree : library.arena.IsTree) (reached : Reached library start)
  {before : Registry} (since : Grows library start before)
include tree reached since

section
variable {depth : Nat} (deep : start.next library < depth)
include deep

theorem like_expanded {scope : Scope} (height : Nat)
    (asks : ∀ levels before id, height ≤ levels → Grows library start before →
      Itself library (World.diagonal reached).Near before id → Like library before
        (unfold again deeper levels busy (.aggregatedProviders id scope false (scope = .build)))
        (aggregated id scope (scope = .build)))
    (high : height + depth + 2 ≤ levels) {starts : List ResourceId}
    (here : ∀ id ∈ starts, Itself library (World.diagonal reached).Near before id) :
    Like library before (unfold again deeper levels busy (.expanded starts scope))
      (expanded starts scope) := by
  refine like_of_body (by omega) rfl ?_
  have steady := steady_aggregated tree reached scope (scope = .build)
  have steps : ∀ levels before id, height + 1 ≤ levels → Grows library start before →
      Itself library (World.diagonal reached).Near before id → Like library before
        (unfold again deeper levels busy (.next (.providers scope) id))
        (aggregated id scope (scope = .build)) := by
    intro levels before id room since inside
    refine like_of_body (by omega) rfl ?_
    rw [body, Call.neighbours]
    exact asks _ before id (by omega) since inside
  rw [body, expanded]
  exact like_closure steady (height + 1) steps deep (by omega) since here

theorem like_expanded_of_not_build {scope : Scope} (above : scope ≠ .build)
    (high : depth + 5 ≤ levels) {starts : List ResourceId}
    (here : ∀ id ∈ starts, Itself library (World.diagonal reached).Near before id) :
    Like library before (unfold again deeper levels busy (.expanded starts scope))
      (expanded starts scope) := by
  refine like_expanded tree reached since deep 3 ?_ (by omega) here
  intro levels before id room _ _
  refine like_aggregated_of_not_build room ?_
  rw [decide_eq_false above]
  rintro tier member rfl
  exact scope.build_not_mem_tiers member

theorem like_needs {child : ResourceId} (known : child < start.next library)
    (plain : (library.node start child).isModule = false) (high : depth + 6 ≤ levels) :
    Like library before (unfold again deeper levels busy (.aggregatedProviders child .test true true))
      (needs child) := by
  have stays : ∀ after, Grows library before after →
      (library.node after child).isModule = false := by
    intro after onward
    rwa [Grows.node (since.trans onward) known]
  refine Eq.trans ?_ (answer_needs_of_plain stays).symm
  refine like_aggregatedProviders (by omega) ?_ fun _ found grown given => ?_
  · intro tier _ after onward
    refine like_localProviders (by omega) fun _ last more module => ?_
    rw [stays last (onward.trans more)] at module
    cases module
  · have steady := steady_aggregated tree reached .test true
    have onward := (steady.growing child).grows given
    have here := steady.stays since (steady.lasts since (itself_of_lt reached known)) given
    exact like_expanded_of_not_build tree reached (since.trans onward) deep (by decide) (by omega)
      here

theorem like_neededModules {id : ResourceId} (known : id < start.next library)
    (high : depth + 7 ≤ levels) :
    Like library before (unfold again deeper levels false (.neededModules id))
      (neededModules (library.node before id)) := by
  obtain ⟨lower, rfl⟩ : ∃ lower, levels = lower + 1 := ⟨levels - 1, by omega⟩
  rw [unfold_neededModules, body]
  unfold Like
  rw [answer_bind, answer_node]
  refine like_bind (.refl _) fun plain grown given => ?_
  rw [answer_filterM (p := fun child => !(library.node before child).isModule)
    fun child => by simp only [answer_bind, answer_node, answer_pure]] at given
  cases given
  refine like_bind (like_mapM ?_ fun child member after onward => ?_) fun _ _ _ => .refl _
  · exact growing_outerNeeds _
  · obtain ⟨inside, plain⟩ := List.mem_filter.mp member
    rw [since.node known] at inside
    have up := (mem_children_iff tree reached known).mp inside
    have early := Library.known_of_parent up
    rw [since.node early] at plain
    exact like_bind (like_needs tree reached (since.trans onward) deep early (by simpa using plain)
      (by omega)) fun _ _ _ => .refl _

theorem like_localProviders_of_near {id : ResourceId}
    (near : Itself library (World.diagonal reached).Near before id) {tier : Scope}
    {category : Option Category} (high : depth + 8 ≤ levels) :
    Like library before (unfold again deeper levels false (.localProviders id tier category))
      (localProviders id tier category) := by
  refine like_localProviders (by omega) fun _ after onward module => ?_
  have steady := steady_localProviders tree reached tier category
  obtain ⟨_, same | leaf⟩ := steady.lasts onward near
  · exact like_neededModules tree reached (since.trans onward) deep same.lt_next.1 (by omega)
  · exact absurd (module.symm.trans leaf.isPlain.1) (by decide)

theorem like_aggregated_of_near {id : ResourceId}
    (near : Itself library (World.diagonal reached).Near before id) {scope : Scope}
    {withBuild : Bool} (high : depth + 10 ≤ levels) :
    Like library before
      (unfold again deeper levels false (.aggregatedProviders id scope false withBuild))
      (aggregated id scope withBuild) := by
  rw [← aggregatedProviders_of_not_expand]
  refine like_aggregatedProviders (by omega) (fun tier _ after onward => ?_) nofun
  have lasts := (steady_localProviders tree reached tier none).lasts onward near
  exact like_localProviders_of_near tree reached (since.trans onward) deep lasts (by omega)

theorem like_expanded_of_near {starts : List ResourceId}
    (here : ∀ id ∈ starts, Itself library (World.diagonal reached).Near before id) {scope : Scope}
    (high : 2 * depth + 12 ≤ levels) :
    Like library before (unfold again deeper levels false (.expanded starts scope))
      (expanded starts scope) := by
  refine like_expanded tree reached since deep (depth + 10) ?_ (by omega) here
  exact fun levels before id room since near =>
    like_aggregated_of_near tree reached since deep near room

variable {id : ResourceId} (near : Itself library (World.diagonal reached).Near before id)
include near

theorem like_tierProviders_of_near {scope : Scope} {expand : Bool} {category : Option Category}
    (high : 2 * depth + 13 ≤ levels) :
    Like library before (unfold again deeper levels false (.tierProviders id scope expand category))
      (tierProviders id scope expand category) := by
  refine like_of_body (by omega) rfl ?_
  rw [body, tierProviders]
  refine like_bind (like_localProviders_of_near tree reached since deep near (by omega))
    fun found grown given => ?_
  have steady := steady_localProviders tree reached scope category
  have onward := (steady.growing id).grows given
  cases expand with
  | false => exact .refl _
  | true =>
    exact like_expanded_of_near tree reached (since.trans onward) deep
      (steady.stays since near given) (by omega)

theorem like_aggregatedProviders_of_near {scope : Scope} {expand withBuild : Bool}
    (high : 2 * depth + 13 ≤ levels) :
    Like library before
      (unfold again deeper levels false (.aggregatedProviders id scope expand withBuild))
      (aggregatedProviders id scope expand withBuild) := by
  refine like_aggregatedProviders (by omega) ?_ fun _ found grown given => ?_
  · intro tier _ after onward
    have lasts := (steady_localProviders tree reached tier none).lasts onward near
    exact like_localProviders_of_near tree reached (since.trans onward) deep lasts (by omega)
  · have steady := steady_aggregated tree reached scope withBuild
    have onward := (steady.growing id).grows given
    exact like_expanded_of_near tree reached (since.trans onward) deep
      (steady.stays since near given) (by omega)

end

end

end
end Query
end ResourceLibrary
