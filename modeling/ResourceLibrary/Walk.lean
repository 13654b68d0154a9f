/-!
Depth-first walks over a graph whose neighbours are computed on the way, in any monad. A walk emits
each node once, however many starts it is driven from: in post-order after its neighbours, in
pre-order before them. `depth` bounds the number of nodes on the way to the present one; a walk that
has used it up turns back, so it must exceed the number of nodes that have neighbours.
-/

namespace ResourceLibrary

universe u v

/-- What a post-order walk has found: the nodes in the order they were left, and for every edge back
to a node that was still open the nodes from there on, closed by that node. -/
structure Walk (α : Type u) where
  order : List α
  cycles : List (List α)

namespace Walk
variable {α : Type u} {m : Type u → Type v} [DecidableEq α]

def none : Walk α := ⟨[], []⟩

/-- Nodes from `node` on among those on the way, which stand innermost first. -/
def cycleFrom (node : α) (above : List α) : List α :=
  node :: ((above.takeWhile (· ≠ node)).reverse ++ [node])

def leave (walk : Walk α) (node : α) : Walk α := { walk with order := walk.order ++ [node] }

def recordCycle (walk : Walk α) (node : α) (above : List α) : Walk α :=
  { walk with cycles := walk.cycles ++ [cycleFrom node above] }

def visit [Monad m] (next : α → m (List α)) : Nat → List α → Walk α → α → m (Walk α)
  | 0, _, walk, _ => pure walk
  | depth + 1, above, walk, node =>
    if node ∈ above then pure (walk.recordCycle node above)
    else if node ∈ walk.order then pure walk
    else do
      let walk ← (← next node).foldlM (visit next depth (node :: above)) walk
      pure (walk.leave node)

def postOrder [Monad m] (depth : Nat) (next : α → m (List α)) (starts : List α) : m (Walk α) :=
  starts.foldlM (visit next depth []) none

/-- Emits a node and what is newly reached from it behind the nodes emitted before. -/
def enter [Monad m] (next : α → m (List α)) : Nat → List α → α → m (List α)
  | 0, order, _ => pure order
  | depth + 1, order, node =>
    if node ∈ order then pure order
    else do (← next node).foldlM (enter next depth) (order ++ [node])

def preOrder [Monad m] (depth : Nat) (next : α → m (List α)) (starts : List α) : m (List α) :=
  starts.foldlM (enter next depth) []

theorem visit_of_left [Monad m] (next : α → m (List α)) (depth : Nat) {above : List α}
    {walk : Walk α} {node : α} (closed : node ∉ above) (left : node ∈ walk.order) :
    visit next depth above walk node = pure walk := by
  cases depth <;> simp [visit, closed, left]

end Walk
end ResourceLibrary
