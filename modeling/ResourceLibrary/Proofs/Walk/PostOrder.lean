import Mathlib.Data.List.Chain
import Mathlib.Data.List.Nodup
import Mathlib.Logic.Relation
import ResourceLibrary.Walk

/-!
Post-order walks over a graph that is known beforehand. Main statements: the order holds each node
that the starts reach once; a node stands behind each of its successors that does not lead back to
it; every recorded cycle is a loop of the graph, and a graph with a loop records one; starts that
stand behind their successors stay as they are.
-/

namespace ResourceLibrary.Walk

universe u
variable {α : Type u} {edges : α → List α}

def Edge (edges : α → List α) (node next : α) : Prop := next ∈ edges node

def Reaches (edges : α → List α) : α → α → Prop := Relation.ReflTransGen (Edge edges)

def Precedes (order : List α) (first second : α) : Prop :=
  ∃ before after, order = before ++ second :: after ∧ first ∈ before

def Loop (edges : α → List α) (cycle : List α) : Prop :=
  ∃ node inner, cycle = node :: (inner ++ [node]) ∧ cycle.IsChain (Edge edges)

theorem precedes_append {order : List α} {first second : α}
    (before : Precedes order first second) (more : List α) :
    Precedes (order ++ more) first second := by
  obtain ⟨front, back, rfl, member⟩ := before
  exact ⟨front, back ++ more, by simp, member⟩

theorem precedes_last {order : List α} {first : α} (member : first ∈ order) (second : α) :
    Precedes (order ++ [second]) first second :=
  ⟨order, [], rfl, member⟩

theorem mem_of_precedes {order : List α} {first second : α}
    (before : Precedes order first second) : first ∈ order ∧ second ∈ order := by
  obtain ⟨front, back, rfl, member⟩ := before
  exact ⟨by simp [member], by simp⟩

theorem mem_front_of_precedes {front back : List α} {first second : α}
    (single : (front ++ second :: back).Nodup)
    (before : Precedes (front ++ second :: back) first second) : first ∈ front := by
  have sole : second ∉ front ++ back := (List.nodup_cons.mp (List.nodup_middle.mp single)).1
  rw [List.mem_append, not_or] at sole
  obtain ⟨others, after, split, member⟩ := before
  rwa [((List.append_cons_inj_of_notMem sole.1 sole.2).mp split).1]

theorem idxOf_lt_of_precedes [DecidableEq α] {order : List α} {first second : α}
    (single : order.Nodup) (before : Precedes order first second) :
    order.idxOf first < order.idxOf second := by
  obtain ⟨front, back, rfl, member⟩ := before
  have fresh : second ∉ front := by
    intro again
    have apart := (List.nodup_append.mp single).2.2 second again second (by simp)
    exact apart rfl
  have position : (front ++ second :: back).idxOf second = front.length := by
    simp [List.idxOf_append, fresh]
  rw [position, List.idxOf_append, if_pos member]
  exact List.idxOf_lt_length_of_mem member

theorem no_return_of_precedes [DecidableEq α] {order : List α} (single : order.Nodup)
    (earlier : ∀ node ∈ order, ∀ next ∈ edges node, Precedes order next node) {node : α}
    (member : node ∈ order) : ¬Relation.TransGen (Edge edges) node node := by
  have descends : ∀ {far}, Relation.TransGen (Edge edges) node far →
      far ∈ order ∧ order.idxOf far < order.idxOf node := by
    intro far way
    induction way with
    | single edge =>
      have before := earlier node member _ edge
      exact ⟨(mem_of_precedes before).1, idxOf_lt_of_precedes single before⟩
    | tail _ edge ih =>
      have before := earlier _ ih.1 _ edge
      have lower := idxOf_lt_of_precedes single before
      exact ⟨(mem_of_precedes before).1, by omega⟩
  intro way
  have := (descends way).2
  omega

theorem return_of_loop {cycle : List α} (loop : Loop edges cycle) :
    ∃ node ∈ cycle, Relation.TransGen (Edge edges) node node := by
  obtain ⟨node, inner, rfl, chain⟩ := loop
  refine ⟨node, by simp, ?_⟩
  cases inner with
  | nil =>
    simp only [List.nil_append, List.isChain_cons_cons] at chain
    exact .single chain.1
  | cons next rest =>
    rw [List.cons_append, List.isChain_cons_cons] at chain
    have way := List.relationReflTransGen_of_exists_isChain_cons (rest ++ [node]) chain.2
      (b := node) (by simp)
    exact Relation.TransGen.head' chain.1 way

/-- What holds of a walk while the nodes `above` are on the way to the present one. -/
structure Sound (edges : α → List α) (above : List α) (walk : Walk α) : Prop where
  single : walk.order.Nodup
  closed : ∀ node ∈ above, node ∉ walk.order
  covered : ∀ node ∈ walk.order, ∀ next ∈ edges node, next ∈ walk.order ∨ next ∈ above
  earlier : ∀ node ∈ walk.order, ∀ next ∈ edges node,
    Precedes walk.order next node ∨ Reaches edges next node
  straight : walk.cycles = [] → ∀ node ∈ walk.order, ∀ next ∈ edges node,
    Precedes walk.order next node
  loops : ∀ cycle ∈ walk.cycles, Loop edges cycle
  kept : ∀ cycle ∈ walk.cycles, ∀ node ∈ cycle, node ∈ walk.order ∨ node ∈ above

structure Passed (edges : α → List α) (above nodes : List α) (walk after : Walk α) : Prop where
  sound : Sound edges above after
  order : walk.order <+: after.order
  cycles : walk.cycles <+: after.cycles
  reached : ∀ node ∈ after.order, node ∈ walk.order ∨ ∃ start ∈ nodes, Reaches edges start node
  left : ∀ node ∈ nodes, node ∈ after.order ∨ node ∈ above
  clear : after.cycles = [] → ∀ node ∈ nodes, node ∈ after.order

def Way (edges : α → List α) (node : α) (above : List α) : Prop :=
  (node :: above).IsChain fun inner outer => Edge edges outer inner

theorem sound_none (edges : α → List α) : Sound edges [] none := by
  constructor <;> simp [none]

theorem reaches_of_way {node : α} {above : List α} (way : Way edges node above) :
    ∀ outer ∈ above, Reaches edges outer node := by
  induction above generalizing node with
  | nil => simp
  | cons first rest ih =>
    obtain ⟨edge, further⟩ := List.isChain_cons_cons.mp way
    intro outer member
    rcases List.mem_cons.mp member with rfl | later
    · exact .single edge
    · exact .tail (ih further outer later) edge

theorem passed_nil {above : List α} {walk : Walk α} (sound : Sound edges above walk) :
    Passed edges above [] walk walk := by
  refine ⟨sound, List.prefix_rfl, List.prefix_rfl, ?_, by simp, by simp⟩
  exact fun node member => .inl member

theorem passed_cons {above nodes : List α} {node : α} {walk mid after : Walk α}
    (first : Passed edges above [node] walk mid) (rest : Passed edges above nodes mid after) :
    Passed edges above (node :: nodes) walk after := by
  refine ⟨rest.sound, first.order.trans rest.order, first.cycles.trans rest.cycles, ?_, ?_, ?_⟩
  · intro found member
    rcases rest.reached found member with before | ⟨start, inRest, reach⟩
    · rcases first.reached found before with old | ⟨start, same, reach⟩
      · exact .inl old
      · exact .inr ⟨start, by simp_all, reach⟩
    · exact .inr ⟨start, by simp [inRest], reach⟩
  · intro other member
    rcases List.mem_cons.mp member with rfl | later
    · rcases first.left other (by simp) with emitted | opened
      · exact .inl (rest.order.subset emitted)
      · exact .inr opened
    · exact rest.left other later
  · intro quiet other member
    rcases List.mem_cons.mp member with rfl | later
    · have quietBefore : mid.cycles = [] := by
        have := rest.cycles
        rw [quiet] at this
        exact List.prefix_nil.mp this
      exact rest.order.subset (first.clear quietBefore other (by simp))
    · exact rest.clear quiet other later

theorem passed_foldl {above : List α} (step : Walk α → α → Walk α) {nodes : List α}
    (each : ∀ node ∈ nodes, ∀ walk, Sound edges above walk →
      Passed edges above [node] walk (step walk node))
    {walk : Walk α} (sound : Sound edges above walk) :
    Passed edges above nodes walk (nodes.foldl step walk) := by
  induction nodes generalizing walk with
  | nil => exact passed_nil sound
  | cons node rest ih =>
    have first := each node (by simp) walk sound
    exact passed_cons first (ih (fun other member => each other (by simp [member])) first.sound)

theorem passed_of_mem {above : List α} {walk : Walk α} {node : α}
    (sound : Sound edges above walk) (member : node ∈ walk.order) :
    Passed edges above [node] walk walk := by
  refine ⟨sound, List.prefix_rfl, List.prefix_rfl, fun found old => .inl old, ?_, ?_⟩
  · exact fun other same => .inl (List.mem_singleton.mp same ▸ member)
  · exact fun _ other same => List.mem_singleton.mp same ▸ member

theorem sound_open {above : List α} {walk : Walk α} {node : α} (sound : Sound edges above walk)
    (fresh : node ∉ walk.order) : Sound edges (node :: above) walk := by
  refine ⟨sound.single, ?_, ?_, sound.earlier, sound.straight, sound.loops, ?_⟩
  · intro other member
    rcases List.mem_cons.mp member with rfl | outer
    · exact fresh
    · exact sound.closed other outer
  · intro left member next edge
    exact (sound.covered left member next edge).imp_right (List.mem_cons_of_mem _)
  · intro cycle recorded other member
    exact (sound.kept cycle recorded other member).imp_right (List.mem_cons_of_mem _)

theorem sound_leave {above : List α} {walk mid : Walk α} {node : α} (closed : node ∉ above)
    (way : Way edges node above) (inner : Passed edges (node :: above) (edges node) walk mid) :
    Sound edges above (mid.leave node) := by
  have sound := inner.sound
  have fresh : node ∉ mid.order := sound.closed node (by simp)
  have emitted_or_above : ∀ other, other ∈ mid.order ∨ other ∈ node :: above →
      other ∈ (mid.leave node).order ∨ other ∈ above := by
    intro other inside
    rcases inside with emitted | opened
    · exact .inl (by simp [leave, emitted])
    · rcases List.mem_cons.mp opened with rfl | outer
      · exact .inl (by simp [leave])
      · exact .inr outer
  refine ⟨?_, ?_, ?_, ?_, ?_, sound.loops, ?_⟩
  · exact List.nodup_append.mpr ⟨sound.single, by simp, by
      rintro other member last same rfl
      exact fresh (List.mem_singleton.mp same ▸ member)⟩
  · intro outer member emitted
    rcases List.mem_append.mp emitted with old | same
    · exact sound.closed outer (by simp [member]) old
    · exact closed (List.mem_singleton.mp same ▸ member)
  · intro left member next edge
    rcases List.mem_append.mp member with old | same
    · exact emitted_or_above next (sound.covered left old next edge)
    · rw [List.mem_singleton.mp same] at edge
      exact emitted_or_above next (inner.left next edge)
  · intro left member next edge
    rcases List.mem_append.mp member with old | same
    · exact (sound.earlier left old next edge).imp (precedes_append · [node]) id
    · rw [List.mem_singleton.mp same] at edge ⊢
      rcases inner.left next edge with emitted | opened
      · exact .inl (precedes_last emitted node)
      · rcases List.mem_cons.mp opened with rfl | outer
        · exact .inr .refl
        · exact .inr (reaches_of_way way next outer)
  · intro quiet left member next edge
    rcases List.mem_append.mp member with old | same
    · exact precedes_append (sound.straight quiet left old next edge) [node]
    · rw [List.mem_singleton.mp same] at edge ⊢
      exact precedes_last (inner.clear quiet next edge) node
  · intro cycle recorded other member
    exact emitted_or_above other (sound.kept cycle recorded other member)

theorem passed_leave {above : List α} {walk mid : Walk α} {node : α} (closed : node ∉ above)
    (way : Way edges node above) (inner : Passed edges (node :: above) (edges node) walk mid) :
    Passed edges above [node] walk (mid.leave node) := by
  refine ⟨sound_leave closed way inner, inner.order.trans (List.prefix_append _ _), inner.cycles,
    ?_, ?_, ?_⟩
  · intro found member
    rcases List.mem_append.mp member with old | same
    · rcases inner.reached found old with before | ⟨start, edge, reach⟩
      · exact .inl before
      · exact .inr ⟨node, by simp, .head edge reach⟩
    · exact .inr ⟨node, by simp, List.mem_singleton.mp same ▸ .refl⟩
  · exact fun other same => .inl (by simp [leave, List.mem_singleton.mp same])
  · exact fun _ other same => by simp [leave, List.mem_singleton.mp same]

variable [DecidableEq α]

theorem takeWhile_ne_append {node : α} {above : List α} (member : node ∈ above) :
    ∃ rest, above = above.takeWhile (· ≠ node) ++ node :: rest := by
  induction above with
  | nil => simp at member
  | cons first rest ih =>
    by_cases same : first = node
    · exact ⟨rest, by simp [same]⟩
    · obtain ⟨further, split⟩ := ih ((List.mem_cons.mp member).resolve_left (Ne.symm same))
      refine ⟨further, ?_⟩
      rw [List.takeWhile_cons_of_pos (by simpa using same), List.cons_append, ← split]

theorem loop_cycleFrom {node : α} {above : List α} (way : Way edges node above)
    (member : node ∈ above) : Loop edges (cycleFrom node above) := by
  obtain ⟨rest, split⟩ := takeWhile_ne_append member
  have part : node :: (above.takeWhile (· ≠ node) ++ [node]) <+: node :: above := by
    refine ⟨rest, ?_⟩
    conv => rhs; rw [split]
    simp
  have stretch := List.IsChain.infix way part.isInfix
  have backwards := List.isChain_reverse.mpr stretch
  refine ⟨node, (above.takeWhile (· ≠ node)).reverse, rfl, ?_⟩
  simpa [cycleFrom] using backwards

theorem mem_above_of_mem_cycleFrom {node other : α} {above : List α} (opened : node ∈ above)
    (member : other ∈ cycleFrom node above) : other ∈ above := by
  simp only [cycleFrom, List.mem_cons, List.mem_append, List.mem_reverse, List.not_mem_nil,
    or_false] at member
  rcases member with rfl | inner | rfl
  · exact opened
  · exact List.takeWhile_subset _ inner
  · exact opened

theorem passed_recordCycle {above : List α} {walk : Walk α} {node : α}
    (sound : Sound edges above walk) (way : Way edges node above) (member : node ∈ above) :
    Passed edges above [node] walk (walk.recordCycle node above) := by
  refine ⟨⟨sound.single, sound.closed, sound.covered, sound.earlier, by simp [recordCycle], ?_, ?_⟩,
    List.prefix_rfl, List.prefix_append _ _, ?_, ?_, by simp [recordCycle]⟩
  · intro cycle recorded
    rcases List.mem_append.mp recorded with old | fresh
    · exact sound.loops cycle old
    · rw [List.mem_singleton.mp fresh]
      exact loop_cycleFrom way member
  · intro cycle recorded other inCycle
    rcases List.mem_append.mp recorded with old | fresh
    · exact sound.kept cycle old other inCycle
    · rw [List.mem_singleton.mp fresh] at inCycle
      exact .inr (mem_above_of_mem_cycleFrom member inCycle)
  · exact fun found old => .inl old
  · exact fun other same => .inr (List.mem_singleton.mp same ▸ member)

def traced (edges : α → List α) (depth : Nat) (starts : List α) : Walk α :=
  (postOrder (m := Id) depth (fun node => pure (edges node)) starts).run

structure Bounded (edges : α → List α) (inside : α → Prop) (members : List α) : Prop where
  stays : ∀ node, inside node → ∀ next ∈ edges node, inside next
  known : ∀ node, inside node → ∀ next ∈ edges node, node ∈ members

theorem visit_succ (edges : α → List α) (depth : Nat) (above : List α) (walk : Walk α) (node : α) :
    (visit (m := Id) (fun node => pure (edges node)) (depth + 1) above walk node).run =
      if node ∈ above then walk.recordCycle node above
      else if node ∈ walk.order then walk
      else ((edges node).foldl (fun walk next =>
        (visit (m := Id) (fun node => pure (edges node)) depth (node :: above) walk next).run)
        walk).leave node := by
  rw [visit]
  split
  · rfl
  · split
    · rfl
    · simp [List.idRun_foldlM]

theorem passed_visit {inside : α → Prop} {members : List α} (bounded : Bounded edges inside members)
    (depth : Nat) {above : List α} {walk : Walk α} {node : α} (start : inside node)
    (sound : Sound edges above walk) (way : Way edges node above) (single : above.Nodup)
    (opened : above ⊆ members) (room : members.length < depth + above.length) :
    Passed edges above [node] walk
      (visit (m := Id) (fun node => pure (edges node)) depth above walk node).run := by
  induction depth generalizing above walk node with
  | zero =>
    have := single.length_le_of_subset opened
    omega
  | succ depth ih =>
    rw [visit_succ]
    split
    · next member => exact passed_recordCycle sound way member
    · next closed =>
      split
      · next member => exact passed_of_mem sound member
      · next fresh =>
        refine passed_leave closed way (passed_foldl _ ?_ (sound_open sound fresh))
        intro next edge walk soundHere
        have here : node ∈ members := bounded.known node start next edge
        refine ih (bounded.stays node start next edge) soundHere
          (List.isChain_cons_cons.mpr ⟨edge, way⟩) (List.nodup_cons.mpr ⟨closed, single⟩) ?_ ?_
        · exact List.cons_subset.mpr ⟨here, opened⟩
        · simp only [List.length_cons]
          omega

theorem visit_pure {m : Type u → Type u} [Monad m] [LawfulMonad m] (edges : α → List α)
    (depth : Nat) (above : List α) (walk : Walk α) (node : α) :
    visit (fun node => (pure (edges node) : m (List α))) depth above walk node =
      pure (visit (m := Id) (fun node => pure (edges node)) depth above walk node).run := by
  induction depth generalizing above walk node with
  | zero => rfl
  | succ depth ih =>
    rw [visit_succ, visit]
    split
    · rfl
    · split
      · rfl
      · rw [pure_bind, funext fun walk => funext fun next => ih (node :: above) walk next,
          List.foldlM_pure, pure_bind]

theorem postOrder_pure {m : Type u → Type u} [Monad m] [LawfulMonad m] (edges : α → List α)
    (depth : Nat) (starts : List α) :
    postOrder depth (fun node => (pure (edges node) : m (List α))) starts =
      pure (traced edges depth starts) := by
  have each : visit (fun node => (pure (edges node) : m (List α))) depth [] =
      fun walk node =>
        pure (visit (m := Id) (fun node => pure (edges node)) depth [] walk node).run :=
    funext fun walk => funext fun node => visit_pure edges depth [] walk node
  rw [postOrder, each, List.foldlM_pure, traced, postOrder, List.idRun_foldlM]

theorem passed_traced {inside : α → Prop} {members : List α}
    (bounded : Bounded edges inside members) {depth : Nat} (room : members.length < depth)
    {starts : List α} (started : ∀ start ∈ starts, inside start) :
    Passed edges [] starts none (traced edges depth starts) := by
  rw [traced, postOrder, List.idRun_foldlM]
  refine passed_foldl _ ?_ (sound_none edges)
  intro start member walk sound
  exact passed_visit bounded depth (started start member) sound (List.isChain_singleton _) .nil
    (List.nil_subset _) (by simpa using room)

theorem mem_order_traced {inside : α → Prop} {members : List α}
    (bounded : Bounded edges inside members) {depth : Nat} (room : members.length < depth)
    {starts : List α} (started : ∀ start ∈ starts, inside start) (node : α) :
    node ∈ (traced edges depth starts).order ↔ ∃ start ∈ starts, Reaches edges start node := by
  have passed := passed_traced bounded room started
  constructor
  · intro member
    exact (passed.reached node member).resolve_left (by simp [none])
  · rintro ⟨start, member, reach⟩
    induction reach with
    | refl => exact (passed.left start member).resolve_right (by simp)
    | tail _ edge ih => exact (passed.sound.covered _ ih _ edge).resolve_right (by simp)

theorem mem_order_traced_starts {starts members : List α}
    (bounded : Bounded edges (· ∈ starts) members) {depth : Nat} (room : members.length < depth)
    (node : α) : node ∈ (traced edges depth starts).order ↔ node ∈ starts := by
  rw [mem_order_traced bounded room fun _ member => member]
  constructor
  · rintro ⟨start, member, way⟩
    induction way with
    | refl => exact member
    | tail _ edge ih => exact bounded.stays _ ih _ edge
  · intro member
    exact ⟨node, member, .refl⟩

theorem cycles_traced_eq_nil_iff {inside : α → Prop} {members : List α}
    (bounded : Bounded edges inside members) {depth : Nat} (room : members.length < depth)
    {starts : List α} (started : ∀ start ∈ starts, inside start) :
    (traced edges depth starts).cycles = [] ↔
      ∀ node ∈ (traced edges depth starts).order, ¬Relation.TransGen (Edge edges) node node := by
  have sound := (passed_traced bounded room started).sound
  constructor
  · intro quiet node member
    exact no_return_of_precedes sound.single (sound.straight quiet) member
  · intro none
    cases recorded : (traced edges depth starts).cycles with
    | nil => rfl
    | cons cycle rest =>
      have member : cycle ∈ (traced edges depth starts).cycles := by simp [recorded]
      obtain ⟨node, inCycle, back⟩ := return_of_loop (sound.loops cycle member)
      have emitted := (sound.kept cycle member node inCycle).resolve_right (by simp)
      exact absurd back (none node emitted)

/-- A walk over starts that stand behind all their successors leaves them as they are. -/
theorem traced_of_precedes {starts : List α} (single : starts.Nodup)
    (earlier : ∀ node ∈ starts, ∀ next ∈ edges node, Precedes starts next node) (depth : Nat) :
    traced edges (depth + 1) starts = ⟨starts, []⟩ := by
  -- Before each start just those in front of it have been emitted.
  have behind : ∀ back front, front ++ back = starts →
      back.foldl (fun walk node =>
        (visit (m := Id) (fun node => pure (edges node)) (depth + 1) [] walk node).run)
        ⟨front, []⟩ = ⟨starts, []⟩ := by
    intro back
    induction back with
    | nil =>
      intro front whole
      rw [List.append_nil] at whole
      rw [List.foldl_nil, whole]
    | cons node rest ih =>
      intro front whole
      have apart := single
      rw [← whole, List.nodup_middle, List.nodup_cons, List.mem_append, not_or] at apart
      have emitted : ∀ next ∈ edges node, next ∈ front := by
        intro next edge
        have before := earlier node (by simp [← whole]) next edge
        rw [← whole] at before single
        exact mem_front_of_precedes single before
      have still : (edges node).foldl (fun walk next =>
          (visit (m := Id) (fun node => pure (edges node)) depth [node] walk next).run)
          ⟨front, []⟩ = ⟨front, []⟩ := by
        refine List.foldlRecOn (edges node) _
          (motive := fun walk : Walk α => walk = ⟨front, []⟩) rfl ?_
        rintro _ rfl next edge
        have closed : next ∉ [node] := fun same =>
          apart.1.1 (List.mem_singleton.mp same ▸ emitted next edge)
        rw [visit_of_left _ depth closed (emitted next edge)]
        rfl
      rw [List.foldl_cons, visit_succ, if_neg List.not_mem_nil, if_neg apart.1.1, still]
      exact ih (front ++ [node]) (by simp [← whole])
  rw [traced, postOrder, List.idRun_foldlM]
  exact behind starts [] rfl

end ResourceLibrary.Walk
