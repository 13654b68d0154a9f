import Mathlib.Data.List.Forall2
import ResourceLibrary.Proofs.Library.Effects

/-!
Two queries asked with different registries. They agree if they fail alike or give related values,
where the relation may speak of the registries that both have left. Main statements: agreement of
the parts of a query is agreement of the whole.
-/

namespace ResourceLibrary
open Registry (Grows Reached)

structure World (library : Library) where
  left : Registry
  right : Registry
  leftReached : Reached library left
  rightReached : Reached library right

namespace World
variable {library : Library}

def Later (world later : World library) : Prop :=
  Grows library world.left later.left ∧ Grows library world.right later.right

theorem Later.refl (world : World library) : world.Later world := ⟨.refl, .refl⟩

theorem Later.trans {first second third : World library} (one : first.Later second)
    (two : second.Later third) : first.Later third :=
  ⟨one.1.trans two.1, one.2.trans two.2⟩

def Lasting {α β : Type} (rel : World library → α → β → Prop) : Prop :=
  ∀ ⦃world later : World library⦄ ⦃a b⦄, world.Later later → rel world a b → rel later a b

theorem lasting_forall₂ {α β : Type} {rel : World library → α → β → Prop} (lasting : Lasting rel) :
    Lasting fun world => List.Forall₂ (rel world) := by
  intro world later xs ys since related
  exact related.imp fun _ _ => lasting since

end World

namespace Query
variable {library : Library} {α β γ δ : Type} {world : World library}
  {rel : World library → α → β → Prop} {further : World library → γ → δ → Prop}

/-- Both queries fail alike, or both succeed with related values. -/
def Agree (world : World library) (rel : World library → α → β → Prop) (left : Query α)
    (right : Query β) : Prop :=
  ∃ later : World library, world.Later later ∧
    ((∃ a b, left.answer library world.left = (.ok a, later.left) ∧
        right.answer library world.right = (.ok b, later.right) ∧ rel later a b) ∨
      ∃ failure, left.answer library world.left = (.error failure, later.left) ∧
        right.answer library world.right = (.error failure, later.right))

theorem answered_of_agree {left : Query α} {right : Query β} (agree : Agree world rel left right)
    {a : α} {grown : Registry} (given : left.answer library world.left = (.ok a, grown)) :
    ∃ (later : World library) (b : β), world.Later later ∧ later.left = grown ∧
      right.answer library world.right = (.ok b, later.right) ∧ rel later a b := by
  obtain ⟨later, since, ⟨c, b, left, right, related⟩ | ⟨failure, left, _⟩⟩ := agree
  · have same := left.symm.trans given
    rw [Prod.mk.injEq, Except.ok.injEq] at same
    obtain ⟨rfl, rfl⟩ := same
    exact ⟨later, b, since, rfl, right, related⟩
  · have impossible := left.symm.trans given
    cases impossible

theorem related_of_agree {left : Query α} {right : Query β} (agree : Agree world rel left right)
    {a : α} {b : β} {first second : Registry}
    (one : left.answer library world.left = (.ok a, first))
    (two : right.answer library world.right = (.ok b, second)) :
    ∃ later : World library, world.Later later ∧ later.left = first ∧ later.right = second ∧
      rel later a b := by
  obtain ⟨later, other, since, rfl, also, related⟩ := answered_of_agree agree one
  have same := also.symm.trans two
  rw [Prod.mk.injEq, Except.ok.injEq] at same
  obtain ⟨rfl, rfl⟩ := same
  exact ⟨later, since, rfl, rfl, related⟩

theorem agree_pure {a : α} {b : β} (related : rel world a b) :
    Agree world rel (pure a) (pure b) :=
  ⟨world, .refl world, .inl ⟨a, b, rfl, rfl, related⟩⟩

theorem agree_throw (failure : Failure) : Agree world rel (throw failure) (throw failure) :=
  ⟨world, .refl world, .inr ⟨failure, rfl, rfl⟩⟩

theorem agree_ofExcept {left : Except Failure α} {right : Except Failure β}
    (related : (∃ a b, left = .ok a ∧ right = .ok b ∧ rel world a b) ∨
      ∃ failure, left = .error failure ∧ right = .error failure) :
    Agree world rel (ofExcept left) (ofExcept right) := by
  rcases related with ⟨a, b, rfl, rfl, related⟩ | ⟨failure, rfl, rfl⟩
  · exact agree_pure related
  · exact agree_throw failure

theorem Agree.imp {left : Query α} {right : Query β} {weaker : World library → α → β → Prop}
    (agree : Agree world rel left right)
    (weaken : ∀ later, world.Later later → ∀ a b, rel later a b → weaker later a b) :
    Agree world weaker left right := by
  obtain ⟨later, since, ⟨a, b, first, second, related⟩ | failed⟩ := agree
  · exact ⟨later, since, .inl ⟨a, b, first, second, weaken later since a b related⟩⟩
  · exact ⟨later, since, .inr failed⟩

theorem agree_bind {left : Query α} {right : Query β} {nextLeft : α → Query γ}
    {nextRight : β → Query δ} (first : Agree world rel left right)
    (rest : ∀ later, world.Later later → ∀ a b, rel later a b →
      Agree later further (nextLeft a) (nextRight b)) :
    Agree world further (left >>= nextLeft) (right >>= nextRight) := by
  obtain ⟨later, since, ⟨a, b, one, two, related⟩ | ⟨failure, one, two⟩⟩ := first
  · obtain ⟨last, after, done⟩ := rest later since a b related
    refine ⟨last, since.trans after, ?_⟩
    rw [answer_bind, answer_bind, one, two]
    exact done
  · refine ⟨later, since, .inr ⟨failure, ?_, ?_⟩⟩
    · rw [answer_bind, one]
    · rw [answer_bind, two]

theorem agree_mapFailure {left : Query α} {right : Query β} (agree : Agree world rel left right)
    (change : Failure → Failure) :
    Agree world rel (left.mapFailure change) (right.mapFailure change) := by
  obtain ⟨later, since, ⟨a, b, first, second, related⟩ | ⟨failure, first, second⟩⟩ := agree
  · refine ⟨later, since, .inl ⟨a, b, ?_, ?_, related⟩⟩
    · rw [answer_mapFailure, first, Except.mapError]
    · rw [answer_mapFailure, second, Except.mapError]
  · refine ⟨later, since, .inr ⟨change failure, ?_, ?_⟩⟩
    · rw [answer_mapFailure, first, Except.mapError]
    · rw [answer_mapFailure, second, Except.mapError]

theorem agree_nodes_bind {nextLeft : (ResourceId → Node) → Query γ}
    {nextRight : (ResourceId → Node) → Query δ}
    (rest : Agree world further (nextLeft (library.node world.left))
      (nextRight (library.node world.right))) :
    Agree world further (nodes >>= nextLeft) (nodes >>= nextRight) := by
  obtain ⟨later, since, done⟩ := rest
  refine ⟨later, since, ?_⟩
  rw [answer_bind, answer_bind, answer_nodes, answer_nodes]
  exact done

theorem agree_node_bind {i j : ResourceId} {nextLeft : Node → Query γ} {nextRight : Node → Query δ}
    (rest : Agree world further (nextLeft (library.node world.left i))
      (nextRight (library.node world.right j))) :
    Agree world further (node i >>= nextLeft) (node j >>= nextRight) := by
  obtain ⟨later, since, done⟩ := rest
  refine ⟨later, since, ?_⟩
  rw [answer_bind, answer_bind, answer_node, answer_node]
  exact done

theorem agree_settle_bind {path : FilePath} {nextLeft : FilePath → Query γ}
    {nextRight : FilePath → Query δ}
    (rest : Agree world further (nextLeft (library.ground.settle path))
      (nextRight (library.ground.settle path))) :
    Agree world further (settle path >>= nextLeft) (settle path >>= nextRight) := rest

theorem agree_depth_bind {nextLeft : Nat → Query γ} {nextRight : Nat → Query δ}
    (rest : Agree world further (nextLeft (world.left.next library + 1))
      (nextRight (world.right.next library + 1))) :
    Agree world further (depth >>= nextLeft) (depth >>= nextRight) := by
  obtain ⟨later, since, done⟩ := rest
  refine ⟨later, since, ?_⟩
  rw [answer_bind, answer_bind, answer_depth, answer_depth]
  exact done

theorem agree_mapM {items : α → β → Prop} (lasting : World.Lasting further)
    {stepLeft : α → Query γ} {stepRight : β → Query δ}
    (step : ∀ later, world.Later later → ∀ a b, items a b →
      Agree later further (stepLeft a) (stepRight b)) {xs : List α} {ys : List β}
    (related : List.Forall₂ items xs ys) :
    Agree world (fun later => List.Forall₂ (further later)) (xs.mapM stepLeft)
      (ys.mapM stepRight) := by
  induction related generalizing world with
  | nil => exact agree_pure .nil
  | cons head _ ih =>
    rw [List.mapM_cons, List.mapM_cons]
    apply agree_bind (step world (.refl world) _ _ head)
    intro later since a b first
    apply agree_bind (ih fun last after => step last (since.trans after))
    intro last after as bs rest
    exact agree_pure (.cons (lasting after first) rest)

theorem agree_foldlM {items : World library → γ → δ → Prop} (lasting : World.Lasting items)
    {stepLeft : α → γ → Query α} {stepRight : β → δ → Query β}
    (step : ∀ later, world.Later later → ∀ a b, rel later a b → ∀ c d, items later c d →
      Agree later rel (stepLeft a c) (stepRight b d)) {xs : List γ} {ys : List δ}
    (related : List.Forall₂ (items world) xs ys) {a : α} {b : β} (start : rel world a b) :
    Agree world rel (xs.foldlM stepLeft a) (ys.foldlM stepRight b) := by
  induction xs generalizing world ys a b with
  | nil =>
    cases related
    exact agree_pure start
  | cons head tail ih =>
    obtain ⟨other, rest, here, behind, rfl⟩ := List.forall₂_cons_left_iff.mp related
    rw [List.foldlM_cons, List.foldlM_cons]
    apply agree_bind (step world (.refl world) a b start _ _ here)
    intro later since c d reached
    exact ih (fun last after => step last (since.trans after))
      (behind.imp fun _ _ => lasting since) reached

theorem agree_filterM {items : α → β → Prop} {testLeft : α → Query Bool}
    {testRight : β → Query Bool} (test : ∀ later, world.Later later → ∀ a b, items a b →
      Agree later (fun _ => Eq) (testLeft a) (testRight b)) {xs : List α} {ys : List β}
    (related : List.Forall₂ items xs ys) :
    Agree world (fun _ => List.Forall₂ items) (xs.filterM testLeft) (ys.filterM testRight) := by
  have aux : ∀ {kept : List α} {left : List β}, List.Forall₂ items kept left →
      Agree world (fun _ => List.Forall₂ items) (xs.filterAuxM testLeft kept)
        (ys.filterAuxM testRight left) := by
    induction related generalizing world with
    | nil => exact fun both => agree_pure both
    | cons head _ ih =>
      intro kept left both
      apply agree_bind (test world (.refl world) _ _ head)
      rintro later since keep _ rfl
      apply ih (fun last after => test last (since.trans after))
      cases keep
      · exact both
      · exact .cons head both
  apply agree_bind (aux .nil)
  intro later since kept left both
  exact agree_pure (List.rel_reverse both)

end Query
end ResourceLibrary
