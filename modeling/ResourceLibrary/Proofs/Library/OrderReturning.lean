import ResourceLibrary.Proofs.Library.Returning

/-!
Sorting returns, and so does going through all resources, which sorts the modules they are in.
-/

namespace ResourceLibrary
open Registry (Grows Reached)
open Call (unfold body walk)

namespace Query
variable {α : Type} {library : Library} {again : ResourceId → Query (List ResourceId)}
  {deeper : Bool → (call : Call) → Query call.Result} {levels : Nat}

section
variable {start : Registry} (tree : library.arena.IsTree) (reached : Reached library start)
  {before : Registry} (since : Grows library start before) {depth : Nat}
  (deep : start.next library < depth)
include tree reached since deep

variable {id : ResourceId}

theorem like_moduleStep {origin : ResourcePath} {scope : Scope} {current : ResourceId}
    (met : Itself library (World.diagonal reached).Met before current)
    (high : depth + 11 ≤ levels) :
    Like library before (unfold again deeper levels false (.next (.modules id origin scope) current))
      (moduleStep id origin scope current) := by
  refine like_of_body (by omega) rfl ?_
  rw [body, Call.neighbours, moduleStep]
  refine like_bind (.refl _) fun nodes last asked => ?_
  cases asked
  dsimp only
  split
  · exact .refl _
  · next outside =>
    obtain ⟨here, _, same | anonymous⟩ := met
    · have near := (steady_aggregated tree reached scope true).lasts since
        (itself_of_lt reached same.lt_next.1)
      exact like_bind (like_aggregated_of_near tree reached since deep near (by omega))
        fun _ _ _ => .refl _
    · exact absurd (Bool.or_eq_true_iff.mpr (.inl anonymous)) outside

section
variable (known : id < start.next library)
include known

theorem like_providerModules {scope : Scope} (high : 2 * depth + 12 ≤ levels) :
    Like library before (unfold again deeper levels false (.providerModules id scope))
      (providerModules id scope) := by
  refine like_of_body (by omega) rfl ?_
  rw [body, providerModules]
  refine like_bind (.refl _) fun node last asked => ?_
  cases asked
  dsimp only
  have steady := steady_moduleStep tree reached known (library.node before id).path scope
  refine like_bind (like_closure steady (depth + 11) ?_ deep ?_ since ?_) fun _ _ _ => .refl _
  · exact fun levels before current room since met =>
      like_moduleStep tree reached since deep met room
  · omega
  · intro other member
    rw [List.mem_singleton.mp member]
    have same := World.diagonal_same reached known
    exact steady.lasts since ⟨reached, same, .inl same⟩

theorem like_sortEdges {candidates : List ResourceId} {scope : Scope}
    (high : 2 * depth + 14 ≤ levels) :
    Like library before (unfold again deeper levels false (.next (.members candidates scope) id))
      (sortEdges candidates scope id) := by
  refine like_of_body (by omega) rfl ?_
  rw [body, Call.neighbours, sortEdges]
  have steady := steady_aggregated tree reached scope true
  have near := steady.lasts since (itself_of_lt reached known)
  refine like_bind (like_aggregated_of_near tree reached since deep near (by omega))
    fun found grown given => like_bind (.refl _) fun node last asked => ?_
  have onward := since.trans ((steady.growing id).grows given)
  cases asked
  split
  · exact like_bind (like_providerModules tree reached onward deep known (by omega))
      fun _ _ _ => .refl _
  · exact .refl _

end

theorem like_sort {candidates : List ResourceId} (known : ∀ id ∈ candidates, id < start.next library)
    {scope : Scope} {strict : Bool} (high : 3 * depth + 15 ≤ levels) :
    Like library before (unfold again deeper levels false (.sort candidates scope strict))
      (sort candidates scope strict) := by
  refine like_of_body (by omega) rfl ?_
  rw [body, sort]
  refine Like.symm ?_
  unfold Like
  rw [answer_bind, answer_depth]
  refine Eq.symm (like_bind ?_ fun _ _ _ => .refl _)
  have steady := steady_sortEdges tree reached known scope
  refine like_walk steady (2 * depth + 14) ?_ deep ?_ since ?_
  · rintro levels before id room since ⟨_, _, listed⟩
    exact like_sortEdges tree reached since deep (known id listed) room
  · omega
  · exact fun id listed => steady.lasts since ⟨reached, rfl, listed⟩

theorem like_everything (high : 3 * depth + 15 ≤ levels) :
    Like library before (Call.everything (unfold again deeper levels false))
      (selectIds Library.root everything false) := by
  have deepToken : Glob.isDeep "**" = true := by decide +kernel
  obtain ⟨top, here, isTop⟩ := tree.top
  have root : library.node before Library.root = top := Library.node_of_node? here before
  rw [Call.everything, selectIds, tokens_everything, selectTokens, selectModules]
  simp only [deepToken, bind_assoc, pure_bind, if_true, allModules, selectTokens]
  refine like_bind (.refl _) fun nodes last asked => ?_
  cases asked
  simp only [root, isTop.isRoot, Bool.not_true, Bool.false_eq_true, if_false]
  refine Like.symm ?_
  unfold Like
  rw [answer_bind, answer_nodes]
  refine Eq.symm (like_bind (.refl _) fun bound last asked => ?_)
  cases asked
  refine like_bind (like_sort tree reached since deep ?_ high) fun modules after _ =>
    like_bind (.refl _) fun _ _ _ => like_bind (.refl _) fun _ _ _ => .refl _
  have begun : (World.diagonal reached).Later (World.diagonal (reached.grows since)) :=
    ⟨since, since⟩
  have root := (World.diagonal reached).same_of_lt (Library.size_pos_of_isTree tree)
  have same := forall₂_modulesBelow tree begun root
  exact fun id member => (List.forall₂_same.mp same id member).lt_next.1

end
end Query
end ResourceLibrary
