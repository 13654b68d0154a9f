import ResourceLibrary.Proofs.Walk.PostOrder

/-!
Pre-order walks over a graph that is known beforehand. Main statement: the order holds, each once,
the nodes that the starts reach.
-/

namespace ResourceLibrary.Walk

universe u
variable {α : Type u} {edges : α → List α}

structure Entered (edges : α → List α) (nodes before after : List α) : Prop where
  kept : before <+: after
  single : before.Nodup → after.Nodup
  reached : ∀ node ∈ after, node ∈ before ∨ ∃ start ∈ nodes, Reaches edges start node
  present : ∀ node ∈ nodes, node ∈ after
  closed : ∀ node ∈ after, node ∉ before → ∀ next ∈ edges node, next ∈ after

theorem entered_nil (order : List α) : Entered edges [] order order := by
  refine ⟨List.prefix_rfl, id, fun node member => .inl member, by simp, ?_⟩
  intro node member fresh
  exact absurd member fresh

theorem entered_of_mem {order : List α} {node : α} (member : node ∈ order) :
    Entered edges [node] order order := by
  refine ⟨List.prefix_rfl, id, fun other inside => .inl inside, by simpa using member, ?_⟩
  intro other inside fresh
  exact absurd inside fresh

theorem entered_cons {nodes before mid after : List α} {node : α}
    (first : Entered edges [node] before mid) (rest : Entered edges nodes mid after) :
    Entered edges (node :: nodes) before after := by
  refine ⟨first.kept.trans rest.kept, fun single => rest.single (first.single single), ?_, ?_, ?_⟩
  · intro found member
    rcases rest.reached found member with earlier | ⟨start, inRest, reach⟩
    · rcases first.reached found earlier with old | ⟨start, same, reach⟩
      · exact .inl old
      · exact .inr ⟨start, by simp_all, reach⟩
    · exact .inr ⟨start, by simp [inRest], reach⟩
  · intro other member
    rcases List.mem_cons.mp member with rfl | later
    · exact rest.kept.subset (first.present other (by simp))
    · exact rest.present other later
  · intro found member fresh next edge
    by_cases earlier : found ∈ mid
    · exact rest.kept.subset (first.closed found earlier fresh next edge)
    · exact rest.closed found member earlier next edge

theorem entered_emit {before after : List α} {node : α} (fresh : node ∉ before)
    (inner : Entered edges (edges node) (before ++ [node]) after) :
    Entered edges [node] before after := by
  have emitted : node ∈ after := inner.kept.subset (by simp)
  refine ⟨(List.prefix_append _ _).trans inner.kept, ?_, ?_, by simpa using emitted, ?_⟩
  · intro single
    apply inner.single
    refine List.nodup_append.mpr ⟨single, by simp, ?_⟩
    rintro other member last same rfl
    exact fresh (List.mem_singleton.mp same ▸ member)
  · intro found member
    rcases inner.reached found member with earlier | ⟨start, edge, reach⟩
    · rcases List.mem_append.mp earlier with old | same
      · exact .inl old
      · exact .inr ⟨node, by simp, List.mem_singleton.mp same ▸ .refl⟩
    · exact .inr ⟨node, by simp, .head edge reach⟩
  · intro found member outside next edge
    by_cases same : found = node
    · rw [same] at edge
      exact inner.present next edge
    · exact inner.closed found member (by simp [outside, same]) next edge

theorem entered_foldl {way : List α} (step : List α → α → List α) {nodes : List α}
    (each : ∀ node ∈ nodes, ∀ order, way ⊆ order → Entered edges [node] order (step order node))
    {order : List α} (opened : way ⊆ order) :
    Entered edges nodes order (nodes.foldl step order) := by
  induction nodes generalizing order with
  | nil => exact entered_nil order
  | cons node rest ih =>
    have first := each node (by simp) order opened
    refine entered_cons first (ih (fun other member => each other (by simp [member])) ?_)
    exact List.Subset.trans opened first.kept.subset

variable [DecidableEq α]

theorem enter_succ (edges : α → List α) (depth : Nat) (order : List α) (node : α) :
    (enter (m := Id) (fun node => pure (edges node)) (depth + 1) order node).run =
      if node ∈ order then order
      else (edges node).foldl (fun order next =>
        (enter (m := Id) (fun node => pure (edges node)) depth order next).run)
        (order ++ [node]) := by
  rw [enter]
  split
  · rfl
  · simp [List.idRun_foldlM]

/-- The nodes on the way to the present one are all emitted, so the walk does not come back to them
and none of them can be met twice; that leaves room enough. -/
theorem entered_enter {inside : α → Prop} {members : List α} (bounded : Bounded edges inside members)
    (depth : Nat) {way order : List α} {node : α} (start : inside node) (single : way.Nodup)
    (known : way ⊆ members) (opened : way ⊆ order) (room : members.length < depth + way.length) :
    Entered edges [node] order
      (enter (m := Id) (fun node => pure (edges node)) depth order node).run := by
  induction depth generalizing way order node with
  | zero =>
    have := single.length_le_of_subset known
    omega
  | succ depth ih =>
    rw [enter_succ]
    split
    · next member => exact entered_of_mem member
    · next fresh =>
      have outside : node ∉ way := fun member => fresh (opened member)
      have begun : node :: way ⊆ order ++ [node] :=
        List.cons_subset.mpr ⟨by simp, List.subset_append_of_subset_left _ opened⟩
      refine entered_emit fresh (entered_foldl _ ?_ begun)
      intro next edge order openedHere
      have here : node ∈ members := bounded.known node start next edge
      refine ih (bounded.stays node start next edge) (List.nodup_cons.mpr ⟨outside, single⟩)
        (List.cons_subset.mpr ⟨here, known⟩) openedHere ?_
      simp only [List.length_cons]
      omega

def entered (edges : α → List α) (depth : Nat) (starts : List α) : List α :=
  (preOrder (m := Id) depth (fun node => pure (edges node)) starts).run

theorem enter_pure {m : Type u → Type u} [Monad m] [LawfulMonad m] (edges : α → List α)
    (depth : Nat) (order : List α) (node : α) :
    enter (fun node => (pure (edges node) : m (List α))) depth order node =
      pure (enter (m := Id) (fun node => pure (edges node)) depth order node).run := by
  induction depth generalizing order node with
  | zero => rfl
  | succ depth ih =>
    rw [enter_succ, enter]
    split
    · rfl
    · rw [pure_bind, funext fun order => funext fun next => ih order next, List.foldlM_pure]

theorem preOrder_pure {m : Type u → Type u} [Monad m] [LawfulMonad m] (edges : α → List α)
    (depth : Nat) (starts : List α) :
    preOrder depth (fun node => (pure (edges node) : m (List α))) starts =
      pure (entered edges depth starts) := by
  have each : enter (fun node => (pure (edges node) : m (List α))) depth =
      fun order node =>
        pure (enter (m := Id) (fun node => pure (edges node)) depth order node).run :=
    funext fun order => funext fun node => enter_pure edges depth order node
  rw [preOrder, each, List.foldlM_pure, entered, preOrder, List.idRun_foldlM]

section
variable {inside : α → Prop} {members : List α} (bounded : Bounded edges inside members)
  {depth : Nat} (room : members.length < depth) {starts : List α}
  (started : ∀ start ∈ starts, inside start)
include bounded room started

theorem entered_preOrder : Entered edges starts [] (entered edges depth starts) := by
  rw [entered, preOrder, List.idRun_foldlM]
  refine entered_foldl _ ?_ (List.nil_subset [])
  intro start member order _
  exact entered_enter bounded depth (started start member) .nil (List.nil_subset _)
    (List.nil_subset _) (by simpa using room)

theorem nodup_entered : (entered edges depth starts).Nodup :=
  (entered_preOrder bounded room started).single .nil

theorem mem_entered_iff (node : α) :
    node ∈ entered edges depth starts ↔ ∃ start ∈ starts, Reaches edges start node := by
  have walked := entered_preOrder bounded room started
  constructor
  · intro member
    exact (walked.reached node member).resolve_left (by simp)
  · rintro ⟨start, member, reach⟩
    induction reach with
    | refl => exact walked.present start member
    | tail _ edge ih => exact walked.closed _ ih (by simp) _ edge

end

end ResourceLibrary.Walk
