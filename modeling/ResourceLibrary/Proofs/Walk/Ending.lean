import Mathlib.Data.Set.Finite.Basic
import ResourceLibrary.Proofs.Walk.PreOrder

/-!
Walks without a bound, over neighbours that may fail to be found. A walk is written out some calls
deep, which leaves the calls at the last level open; it has ended where it does the same whatever the
open calls do. Main statement: walks from starts that reach finitely many nodes end, and have asked
each node once that they emit, unless they end with the failure of a node that is reached.
-/

namespace ResourceLibrary.Walk

universe u v

abbrev Asking (ε α : Type u) := ExceptT ε (StateM (List α))

namespace Asking
variable {ε α β γ : Type u}

def answer (query : Asking ε α β) (noted : List α) : Except ε β × List α := query.run noted

def ask (next : α → Except ε (List α)) (node : α) : Asking ε α (List α) :=
  fun noted => (next node, noted ++ [node])

theorem answer_bind (query : Asking ε α β) (go : β → Asking ε α γ) (noted : List α) :
    (query >>= go).answer noted =
      match query.answer noted with
      | (.ok value, more) => (go value).answer more
      | (.error failure, more) => (.error failure, more) := by
  simp only [answer, bind, ExceptT.bind, ExceptT.mk, StateT.bind, ExceptT.run]
  rcases query noted with ⟨_ | _, more⟩ <;> rfl

theorem answer_ask (next : α → Except ε (List α)) (node : α) (noted : List α) :
    (ask next node).answer noted = (next node, noted ++ [node]) := rfl

theorem ext_answer {query other : Asking ε α β}
    (same : ∀ noted, query.answer noted = other.answer noted) : query = other :=
  funext same

theorem ask_bind_congr {next : α → Except ε (List α)} {node : α}
    {go other : List α → Asking ε α β} (same : ∀ ids, next node = .ok ids → go ids = other ids) :
    ask next node >>= go = ask next node >>= other := by
  refine ext_answer fun noted => ?_
  rw [answer_bind, answer_bind, answer_ask]
  cases found : next node with
  | error failure => rfl
  | ok ids => simp only [same ids found]

theorem foldlM_congr (holds : β → Prop) {step other : β → α → Asking ε α β} {nodes : List α}
    (same : ∀ node ∈ nodes, ∀ value, holds value → step value node = other value node)
    (kept : ∀ node ∈ nodes, ∀ value, holds value → ∀ noted result more,
      (other value node).answer noted = (.ok result, more) → holds result)
    {value : β} (here : holds value) : nodes.foldlM step value = nodes.foldlM other value := by
  induction nodes generalizing value with
  | nil => rfl
  | cons node rest ih =>
    rw [List.foldlM_cons, List.foldlM_cons, same node (by simp) value here]
    refine ext_answer fun noted => ?_
    rw [answer_bind, answer_bind]
    rcases reply : (other value node).answer noted with ⟨failure | result, more⟩
    · rfl
    · have further := kept node (by simp) value here noted result more reply
      simp only
      rw [ih (fun later member => same later (by simp [member]))
        (fun later member => kept later (by simp [member])) further]

end Asking

open Asking (ask)

section
variable {α : Type u} {m : Type u → Type v} [Monad m] [DecidableEq α]
  (next : α → m (List α))

/-- A visit written out some calls deep. `deeper` stands for what the calls at the last level do. -/
def visitOver (deeper : List α → Walk α → α → m (Walk α)) :
    Nat → List α → Walk α → α → m (Walk α)
  | 0, above, walk, node => deeper above walk node
  | depth + 1, above, walk, node =>
    if node ∈ above then pure (walk.recordCycle node above)
    else if node ∈ walk.order then pure walk
    else do
      let walk ← (← next node).foldlM (visitOver deeper depth (node :: above)) walk
      pure (walk.leave node)

def postOrderOver (deeper : List α → Walk α → α → m (Walk α)) (depth : Nat) (starts : List α) :
    m (Walk α) :=
  starts.foldlM (visitOver next deeper depth []) none

def enterOver (deeper : List α → α → m (List α)) : Nat → List α → α → m (List α)
  | 0, order, node => deeper order node
  | depth + 1, order, node =>
    if node ∈ order then pure order
    else do (← next node).foldlM (enterOver deeper depth) (order ++ [node])

def preOrderOver (deeper : List α → α → m (List α)) (depth : Nat) (starts : List α) :
    m (List α) :=
  starts.foldlM (enterOver next deeper depth) []

end

variable {ε α β : Type u}

def successors (next : α → Except ε (List α)) (node : α) : List α :=
  match next node with
  | .ok ids => ids
  | .error _ => []

theorem successors_of_ok {next : α → Except ε (List α)} {node : α} {ids : List α}
    (found : next node = .ok ids) : successors next node = ids := by
  rw [successors, found]

/-! What is asked on the way. -/

section
variable {next : α → Except ε (List α)} {nodes before : List α} {order : β → List α} {known : β}

/-- What asking on the way from some nodes comes to: what is known to be found, with each node asked
that was not in the order before, or the failure of a node that is reached. -/
inductive Outcome (next : α → Except ε (List α)) (nodes before : List α) (order : β → List α)
    (known : β) : Except ε β → List α → Prop
  | found {asked : List α} (all : (order known).Perm (before ++ asked))
    (answered : ∀ node ∈ asked, ∃ ids, next node = .ok ids) :
    Outcome next nodes before order known (.ok known) asked
  | failed {asked : List α} {start node : α} {failure : ε} (begun : start ∈ nodes)
    (way : Reaches (successors next) start node) (fails : next node = .error failure) :
    Outcome next nodes before order known (.error failure) asked

def Asks (next : α → Except ε (List α)) (nodes before : List α) (order : β → List α) (known : β)
    (query : Asking ε α β) : Prop :=
  ∀ noted, ∃ outcome asked, query.answer noted = (outcome, noted ++ asked) ∧
    Outcome next nodes before order known outcome asked

theorem asks_pure (same : order known = before) :
    Asks next nodes before order known (pure known) := by
  intro noted
  refine ⟨.ok known, [], ?_, .found (by simp [same]) (by simp)⟩
  rw [List.append_nil]
  rfl

theorem asks_foldlM {step : β → α → Asking ε α β} {into : β → α → β}
    (each : ∀ node ∈ nodes, ∀ value, Asks next [node] (order value) order (into value node)
      (step value node)) (value : β) :
    Asks next nodes (order value) order (nodes.foldl into value) (nodes.foldlM step value) := by
  induction nodes generalizing value with
  | nil => exact asks_pure rfl
  | cons node rest ih =>
    intro noted
    obtain ⟨outcome, asked, reply, first⟩ := each node (by simp) value noted
    rw [List.foldlM_cons, Asking.answer_bind, reply]
    cases first with
    | failed begun way fails =>
      rw [List.mem_singleton.mp begun] at way
      exact ⟨_, asked, rfl, .failed List.mem_cons_self way fails⟩
    | found all answered =>
      obtain ⟨outcome, more, also, behind⟩ :=
        ih (fun other member => each other (by simp [member])) (into value node) (noted ++ asked)
      refine ⟨outcome, asked ++ more, by simpa using also, ?_⟩
      cases behind with
      | failed begun way fails => exact .failed (List.mem_cons_of_mem _ begun) way fails
      | found whole replied =>
        refine .found ?_ fun other member => ?_
        · rw [← List.append_assoc]
          exact whole.trans (all.append_right more)
        · exact (List.mem_append.mp member).elim (answered other) (replied other)

theorem asks_ask {node : α} {go : List α → Asking ε α β}
    (rest : ∀ ids, next node = .ok ids → Asks next ids (before ++ [node]) order known (go ids)) :
    Asks next [node] before order known (ask next node >>= go) := by
  intro noted
  rw [Asking.answer_bind, Asking.answer_ask]
  cases reply : next node with
  | error failure => exact ⟨_, [node], rfl, .failed (by simp) .refl reply⟩
  | ok ids =>
    obtain ⟨outcome, asked, same, further⟩ := rest ids reply (noted ++ [node])
    refine ⟨outcome, node :: asked, by simpa using same, ?_⟩
    cases further with
    | failed begun way fails =>
      refine .failed (List.mem_singleton_self node) (.head ?_ way) fails
      rw [Edge, successors_of_ok reply]
      exact begun
    | found all answered =>
      refine .found (by simpa using all) fun other member => ?_
      rcases List.mem_cons.mp member with rfl | later
      · exact ⟨ids, reply⟩
      · exact answered other later

theorem asks_leave {walk : Walk α} {query : Asking ε α (Walk α)} {node : α}
    (inner : Asks next nodes before Walk.order walk query) :
    Asks next nodes (before ++ [node]) Walk.order (walk.leave node)
      (query >>= fun walk => pure (walk.leave node)) := by
  intro noted
  obtain ⟨outcome, asked, reply, first⟩ := inner noted
  rw [Asking.answer_bind, reply]
  cases first with
  | failed begun way fails => exact ⟨_, asked, rfl, .failed begun way fails⟩
  | found all answered =>
    refine ⟨_, asked, rfl, .found ?_ answered⟩
    calc
      (walk.order ++ [node]).Perm ((before ++ asked) ++ [node]) := all.append_right _
      _ = before ++ (asked ++ [node]) := by simp
      List.Perm _ (before ++ ([node] ++ asked)) := List.perm_append_comm.append_left _
      _ = (before ++ [node]) ++ asked := by simp

end

variable [DecidableEq α] {next : α → Except ε (List α)}

theorem asks_visit (depth : Nat) (above : List α) (walk : Walk α) (node : α) :
    Asks next [node] walk.order Walk.order
      (visit (m := Id) (fun node => pure (successors next node)) depth above walk node).run
      (visit (ask next) depth above walk node) := by
  induction depth generalizing above walk node with
  | zero => exact asks_pure rfl
  | succ depth ih =>
    rw [visit_succ, visit]
    split
    · exact asks_pure rfl
    · split
      · exact asks_pure rfl
      · refine asks_ask fun ids found => asks_leave ?_
        rw [successors_of_ok found]
        exact asks_foldlM (fun other _ walk => ih (node :: above) walk other) walk

theorem asks_enter (depth : Nat) (order : List α) (node : α) :
    Asks next [node] order (fun order => order)
      (enter (m := Id) (fun node => pure (successors next node)) depth order node).run
      (enter (ask next) depth order node) := by
  induction depth generalizing order node with
  | zero => exact asks_pure rfl
  | succ depth ih =>
    rw [enter_succ, enter]
    split
    · exact asks_pure rfl
    · refine asks_ask fun ids found => ?_
      rw [successors_of_ok found]
      exact asks_foldlM (fun other _ order => ih order other) (order ++ [node])

theorem asks_postOrder (depth : Nat) (starts : List α) :
    Asks next starts [] Walk.order (traced (successors next) depth starts)
      (postOrder depth (ask next) starts) := by
  rw [traced, postOrder, postOrder, List.idRun_foldlM]
  exact asks_foldlM (fun node _ walk => asks_visit depth [] walk node) none

theorem asks_preOrder (depth : Nat) (starts : List α) :
    Asks next starts [] (fun order => order) (entered (successors next) depth starts)
      (preOrder depth (ask next) starts) := by
  rw [entered, preOrder, preOrder, List.idRun_foldlM]
  exact asks_foldlM (fun node _ order => asks_enter depth order node) []

theorem subset_of_enter {depth : Nat} {order result noted more : List α} {node : α}
    (given : (enter (ask next) depth order node).answer noted = (.ok result, more)) :
    order ⊆ result := by
  obtain ⟨outcome, asked, reply, first⟩ := asks_enter depth order node noted
  cases given.symm.trans reply
  cases first with
  | found all _ => exact fun other member => all.symm.subset (List.mem_append_left _ member)

/-! Walks end. -/

section
variable {inside : α → Prop} {members : List α} (bounded : Bounded (successors next) inside members)
include bounded

/-- The nodes on the way to a visit are different members, which leaves no way longer than these. -/
theorem visitOver_eq {depth other : Nat} {deeper : List α → Walk α → α → Asking ε α (Walk α)}
    {above : List α} {node : α} (start : inside node) (single : above.Nodup)
    (opened : above ⊆ members) (room : members.length < depth + above.length)
    (space : members.length < other + above.length) (walk : Walk α) :
    visitOver (ask next) deeper depth above walk node = visit (ask next) other above walk node := by
  have few := single.length_le_of_subset opened
  induction depth generalizing other above walk node with
  | zero => omega
  | succ depth ih =>
    obtain ⟨other, rfl⟩ : ∃ lower, other = lower + 1 := ⟨other - 1, by omega⟩
    rw [visitOver, visit]
    split
    · rfl
    · next closed =>
      split
      · rfl
      · refine Asking.ask_bind_congr fun ids found => ?_
        refine congrArg (fun inner : Asking ε α (Walk α) =>
          inner >>= fun walk => pure (walk.leave node)) ?_
        refine Asking.foldlM_congr (fun _ => True) (fun inner member walk _ => ?_)
          (fun _ _ _ _ _ _ _ _ => trivial) trivial
        have edge : inner ∈ successors next node := successors_of_ok found ▸ member
        have apart := List.nodup_cons.mpr ⟨closed, single⟩
        have listed := List.cons_subset.mpr ⟨bounded.known node start inner edge, opened⟩
        refine ih (bounded.stays node start inner edge) apart listed ?_ ?_ walk
          (apart.length_le_of_subset listed)
        · rw [List.length_cons]
          omega
        · rw [List.length_cons]
          omega

/-- The nodes on the way to a node are emitted when it is entered, so they are different. -/
theorem enterOver_eq {depth other : Nat} {deeper : List α → α → Asking ε α (List α)}
    {way order : List α} {node : α} (start : inside node) (single : way.Nodup)
    (known : way ⊆ members) (opened : way ⊆ order) (room : members.length < depth + way.length)
    (space : members.length < other + way.length) :
    enterOver (ask next) deeper depth order node = enter (ask next) other order node := by
  have few := single.length_le_of_subset known
  induction depth generalizing other way order node with
  | zero => omega
  | succ depth ih =>
    obtain ⟨other, rfl⟩ : ∃ lower, other = lower + 1 := ⟨other - 1, by omega⟩
    rw [enterOver, enter]
    split
    · rfl
    · next fresh =>
      refine Asking.ask_bind_congr fun ids found => ?_
      have outside : node ∉ way := fun member => fresh (opened member)
      have begun : node :: way ⊆ order ++ [node] :=
        List.cons_subset.mpr ⟨by simp, List.subset_append_of_subset_left _ opened⟩
      refine Asking.foldlM_congr (node :: way ⊆ ·) (fun inner member order here => ?_)
        (fun _ _ _ here _ _ _ given => List.Subset.trans here (subset_of_enter given)) begun
      have edge : inner ∈ successors next node := successors_of_ok found ▸ member
      have apart := List.nodup_cons.mpr ⟨outside, single⟩
      have listed := List.cons_subset.mpr ⟨bounded.known node start inner edge, known⟩
      refine ih (bounded.stays node start inner edge) apart listed here ?_ ?_
        (apart.length_le_of_subset listed)
      · rw [List.length_cons]
        omega
      · rw [List.length_cons]
        omega

section
variable {starts : List α} (started : ∀ start ∈ starts, inside start) {depth other : Nat}
  (room : members.length < depth) (space : members.length < other)
include started room space

theorem postOrderOver_eq (deeper : List α → Walk α → α → Asking ε α (Walk α)) :
    postOrderOver (ask next) deeper depth starts = postOrder other (ask next) starts := by
  refine Asking.foldlM_congr (fun _ => True) (fun start member walk _ => ?_)
    (fun _ _ _ _ _ _ _ _ => trivial) trivial
  exact visitOver_eq bounded (started start member) .nil (List.nil_subset _) room space walk

theorem preOrderOver_eq (deeper : List α → α → Asking ε α (List α)) :
    preOrderOver (ask next) deeper depth starts = preOrder other (ask next) starts := by
  refine Asking.foldlM_congr (fun _ => True) (fun start member order _ => ?_)
    (fun _ _ _ _ _ _ _ _ => trivial) trivial
  exact enterOver_eq bounded (started start member) .nil (List.nil_subset _) (List.nil_subset _)
    room space

end
end

/-! Where a walk in pre-order emits a node. -/

omit [DecidableEq α] in
theorem precedes_of_fresh {before after : List α} {first second : α} (kept : before <+: after)
    (member : first ∈ before) (inside : second ∈ after) (fresh : second ∉ before) :
    Precedes after first second := by
  obtain ⟨rest, rfl⟩ := kept
  obtain ⟨front, back, rfl⟩ := List.append_of_mem ((List.mem_append.mp inside).resolve_left fresh)
  exact ⟨before ++ front, back, by simp, List.mem_append_left _ member⟩

/-- What entering `nodes` puts behind an order stands behind a node that has it as a neighbour. -/
structure Led (edges : α → List α) (nodes before after : List α) : Prop where
  kept : before <+: after
  led : ∀ node ∈ after, node ∈ before ∨ node ∈ nodes ∨
    ∃ earlier, Precedes after earlier node ∧ Edge edges earlier node

section
variable {edges : α → List α}

omit [DecidableEq α] in
theorem led_foldl {step : List α → α → List α} {nodes : List α}
    (each : ∀ node ∈ nodes, ∀ order, Led edges [node] order (step order node)) (order : List α) :
    Led edges nodes order (nodes.foldl step order) := by
  induction nodes generalizing order with
  | nil => exact ⟨List.prefix_rfl, fun node member => .inl member⟩
  | cons node rest ih =>
    have first := each node (by simp) order
    have behind := ih (fun other member => each other (by simp [member])) (step order node)
    refine ⟨first.kept.trans behind.kept, fun other member => ?_⟩
    rcases behind.led other member with middle | later | led
    · rcases first.led other middle with old | same | ⟨earlier, before, edge⟩
      · exact .inl old
      · exact .inr (.inl (by simp [List.mem_singleton.mp same]))
      · obtain ⟨more, whole⟩ := behind.kept
        exact .inr (.inr ⟨earlier, whole ▸ precedes_append before more, edge⟩)
    · exact .inr (.inl (by simp [later]))
    · exact .inr (.inr led)

theorem led_enter (depth : Nat) (order : List α) (node : α) :
    Led edges [node] order
      (enter (m := Id) (fun node => pure (edges node)) depth order node).run := by
  induction depth generalizing order node with
  | zero => exact ⟨List.prefix_rfl, fun other member => .inl member⟩
  | succ depth ih =>
    rw [enter_succ]
    split
    · exact ⟨List.prefix_rfl, fun other member => .inl member⟩
    · have inner := led_foldl (fun next (_ : next ∈ edges node) order => ih order next)
        (order ++ [node])
      refine ⟨(List.prefix_append _ _).trans inner.kept, fun other member => ?_⟩
      by_cases emitted : other ∈ order ++ [node]
      · exact (List.mem_append.mp emitted).imp_right .inl
      · rcases inner.led other member with before | next | led
        · exact absurd before emitted
        · exact .inr (.inr ⟨node, precedes_of_fresh inner.kept (by simp) member emitted, next⟩)
        · exact .inr (.inr led)

theorem led_entered (depth : Nat) (starts : List α) :
    Led edges starts [] (entered edges depth starts) := by
  rw [entered, preOrder, List.idRun_foldlM]
  exact led_foldl (fun node _ order => led_enter depth order node) []

end

/-! How walks end. -/

def Reached (next : α → Except ε (List α)) (starts : List α) (node : α) : Prop :=
  ∃ start ∈ starts, Reaches (successors next) start node

/-- The reply of a walk. If the neighbours of all reached nodes can be found, the order holds each of
these nodes once and has a certain shape, and exactly these were asked, each once. Else the walk ends
with the failure of a reached node. -/
structure Ends (next : α → Except ε (List α)) (starts : List α) (order : β → List α)
    (shape : β → Prop) (reply : Except ε β × List α) : Prop where
  found : (∀ node, Reached next starts node → ∃ ids, next node = .ok ids) →
    ∃ value, reply.1 = .ok value ∧ (order value).Nodup ∧
      (∀ node, node ∈ order value ↔ Reached next starts node) ∧ reply.2.Perm (order value) ∧
      shape value
  failed : (∃ node failure, Reached next starts node ∧ next node = .error failure) →
    ∃ node failure, Reached next starts node ∧ next node = .error failure ∧
      reply.1 = .error failure

omit [DecidableEq α] in
theorem ends_of_asks {starts : List α} {order : β → List α} {shape : β → Prop} {known : β}
    {query : Asking ε α β} (asks : Asks next starts [] order known query)
    (single : (order known).Nodup)
    (emitted : ∀ node, node ∈ order known ↔ Reached next starts node) (shaped : shape known) :
    Ends next starts order shape (query.answer []) := by
  obtain ⟨outcome, asked, reply, first⟩ := asks []
  rw [reply]
  cases first with
  | found all answered =>
    refine ⟨fun _ => ⟨known, rfl, single, emitted, all.symm, shaped⟩, ?_⟩
    rintro ⟨node, failure, inside, fails⟩
    have asked := all.subset ((emitted node).mpr inside)
    obtain ⟨ids, found⟩ := answered node asked
    cases found.symm.trans fails
  | @failed _ start node failure begun way fails =>
    have inside : Reached next starts node := ⟨start, begun, way⟩
    refine ⟨fun all => ?_, fun _ => ⟨node, failure, inside, fails, rfl⟩⟩
    obtain ⟨ids, found⟩ := all node inside
    cases found.symm.trans fails

/-- From starts that reach finitely many nodes walks in both orders come to an end: some calls deep
no call is left open. In post-order the recorded cycles are loops, and there is none exactly if no
reached node leads back to itself; in pre-order a node that is no start stands behind a node that has
it as a neighbour. -/
theorem walks_end (next : α → Except ε (List α)) (starts : List α)
    (finite : {node | Reached next starts node}.Finite) :
    (∃ depth,
      (∀ more, depth ≤ more → ∀ deeper, (postOrderOver (ask next) deeper more starts).answer [] =
        (postOrder depth (ask next) starts).answer []) ∧
      Ends next starts Walk.order
        (fun walk => (∀ cycle ∈ walk.cycles, Loop (successors next) cycle) ∧
          (walk.cycles = [] ↔ ∀ node, Reached next starts node →
            ¬Relation.TransGen (Edge (successors next)) node node))
        ((postOrder depth (ask next) starts).answer [])) ∧
    ∃ depth,
      (∀ more, depth ≤ more → ∀ deeper, (preOrderOver (ask next) deeper more starts).answer [] =
        (preOrder depth (ask next) starts).answer []) ∧
      Ends next starts (fun order => order)
        (fun order => ∀ node ∈ order, node ∉ starts →
          ∃ earlier, Precedes order earlier node ∧ Edge (successors next) earlier node)
        ((preOrder depth (ask next) starts).answer []) := by
  let members := finite.toFinset.toList
  let depth := members.length + 1
  have bounded : Bounded (successors next) (Reached next starts) members := by
    refine ⟨fun node ⟨start, begins, way⟩ other edge => ⟨start, begins, way.tail edge⟩, ?_⟩
    intro node inside _ _
    rw [Finset.mem_toList, Set.Finite.mem_toFinset]
    exact inside
  have started : ∀ start ∈ starts, Reached next starts start :=
    fun start begins => ⟨start, begins, .refl⟩
  have room : members.length < depth := Nat.lt_succ_self _
  refine ⟨⟨depth, fun more enough deeper => ?_, ?post⟩, depth, fun more enough deeper => ?_, ?pre⟩
  · rw [postOrderOver_eq bounded started (Nat.lt_of_lt_of_le room enough) room deeper]
  · have emitted := mem_order_traced bounded room started
    have passed := passed_traced bounded room started
    refine ends_of_asks (asks_postOrder depth starts) passed.sound.single emitted
      ⟨passed.sound.loops, ?_⟩
    rw [cycles_traced_eq_nil_iff bounded room started]
    exact forall_congr' fun node => imp_congr_left (emitted node)
  · rw [preOrderOver_eq bounded started (Nat.lt_of_lt_of_le room enough) room deeper]
  · refine ends_of_asks (asks_preOrder depth starts) (nodup_entered bounded room started)
      (mem_entered_iff bounded room started) fun node member away => ?_
    exact ((led_entered depth starts).led node member).elim (fun none => nomatch none)
      fun rest => rest.resolve_left away

def ring (node : Nat) : Except String (List Nat) :=
  if node < 3 then .ok [(node + 1) % 3] else .error "not in the ring"

theorem mem_or_lt_of_reached_ring {starts : List Nat} {node : Nat}
    (reached : Reached ring starts node) : node ∈ starts ∨ node < 3 := by
  obtain ⟨start, begins, way⟩ := reached
  induction way with
  | refl => exact .inl begins
  | @tail before after _ edge ih =>
    refine .inr ?_
    unfold Edge successors ring at edge
    split at edge
    · next ids found =>
      split at found
      · cases found
        rw [List.mem_singleton.mp edge]
        exact Nat.mod_lt _ (by decide)
      · cases found
    · cases edge

theorem finite_reached_ring (starts : List Nat) : {node | Reached ring starts node}.Finite :=
  ((List.finite_toSet starts).union (Set.finite_lt_nat 3)).subset fun _ reached =>
    mem_or_lt_of_reached_ring reached

theorem walks_end_ring :
    (∃ depth walk, ((postOrder depth (ask ring) [0]).answer []).1 = .ok walk ∧
      walk.order.Nodup ∧ (∀ node, node ∈ walk.order ↔ Reached ring [0] node) ∧ walk.cycles ≠ []) ∧
    ∃ depth, ((preOrder depth (ask ring) [0, 5]).answer []).1 = .error "not in the ring" := by
  refine ⟨?around, ?outside⟩
  case around =>
    obtain ⟨depth, _, ends⟩ := (walks_end ring [0] (finite_reached_ring [0])).1
    have all : ∀ node, Reached ring [0] node → ∃ ids, ring node = .ok ids := by
      intro node reached
      have inside : node < 3 := (mem_or_lt_of_reached_ring reached).elim
        (fun begins => List.mem_singleton.mp begins ▸ by decide) id
      exact ⟨_, if_pos inside⟩
    obtain ⟨walk, given, single, emitted, _, _, quiet⟩ := ends.found all
    refine ⟨depth, walk, given, single, emitted, fun none => ?_⟩
    have back : Relation.TransGen (Edge (successors ring)) 0 0 :=
      .tail (.tail (.single (List.mem_singleton_self 1)) (List.mem_singleton_self 2))
        (List.mem_singleton_self 0)
    exact quiet.mp none 0 ⟨0, by simp, .refl⟩ back
  case outside =>
    obtain ⟨depth, _, ends⟩ := (walks_end ring [0, 5] (finite_reached_ring [0, 5])).2
    obtain ⟨node, failure, _, fails, given⟩ := ends.failed ⟨5, _, ⟨5, by simp, .refl⟩, rfl⟩
    refine ⟨depth, given.trans ?_⟩
    unfold ring at fails
    split at fails
    · cases fails
    · cases fails
      rfl

end ResourceLibrary.Walk
