import ResourceLibrary.Proofs.Library.Motion

/-!
Walks that note which nodes they ask for their neighbours. Main statement: a walk that does so goes
the same way, and it asks no node twice, whether it succeeds or fails.
-/

namespace ResourceLibrary

abbrev Noting := ReaderT Library (ExceptT Failure (StateM (List ResourceId × Registry)))

namespace Noting
variable {α β : Type} {library : Library}

def answer (query : Noting α) (library : Library) (noted : List ResourceId) (registry : Registry) :
    Except Failure α × List ResourceId × Registry :=
  (query library).run (noted, registry)

def asking (next : ResourceId → Query (List ResourceId)) (id : ResourceId) :
    Noting (List ResourceId) :=
  fun library state =>
    let reply := (next id).answer library state.2
    (reply.1, state.1 ++ [id], reply.2)

theorem answer_asking (next : ResourceId → Query (List ResourceId)) (id : ResourceId)
    (noted : List ResourceId) (registry : Registry) :
    (asking next id).answer library noted registry =
      (((next id).answer library registry).1, noted ++ [id],
        ((next id).answer library registry).2) := rfl

theorem answer_bind (query : Noting α) (next : α → Noting β) (noted : List ResourceId)
    (registry : Registry) :
    (query >>= next).answer library noted registry =
      match query.answer library noted registry with
      | (.ok value, more, grown) => (next value).answer library more grown
      | (.error failure, more, grown) => (.error failure, more, grown) := by
  simp only [answer, bind, ReaderT.bind, ExceptT.bind, ExceptT.mk, StateT.bind, ExceptT.run]
  rcases query library (noted, registry) with ⟨_ | _, more, grown⟩ <;> rfl

/-- `noting` goes the way of `query`. The nodes that it notes are not among `barred` or `before`, and
no node is noted twice; a result shows in its order all that was there before or was noted. -/
def Follows (library : Library) (barred before : List ResourceId) (order : α → List ResourceId)
    (noting : Noting α) (query : Query α) : Prop :=
  ∀ noted registry, ∃ asked : List ResourceId,
    noting.answer library noted registry = ((query.answer library registry).1, noted ++ asked,
      (query.answer library registry).2) ∧
    asked.Nodup ∧ (∀ id ∈ asked, id ∉ barred ∧ id ∉ before) ∧
    ∀ value, (query.answer library registry).1 = .ok value → before ++ asked ⊆ order value

variable {barred before : List ResourceId} {order : α → List ResourceId}

theorem follows_pure {value : α} (kept : before ⊆ order value) :
    Follows library barred before order (pure value) (pure value) := by
  intro noted registry
  refine ⟨[], ?_, .nil, by simp, ?_⟩
  · rw [List.append_nil]
    rfl
  · intro other same
    cases same
    simpa using kept

theorem follows_foldlM {step : α → ResourceId → Query α} {noting : α → ResourceId → Noting α}
    (each : ∀ value id, Follows library barred (order value) order (noting value id)
      (step value id)) (ids : List ResourceId) (value : α) :
    Follows library barred (order value) order (ids.foldlM noting value)
      (ids.foldlM step value) := by
  induction ids generalizing value with
  | nil => exact follows_pure (List.Subset.refl _)
  | cons id rest ih =>
    intro noted registry
    rw [List.foldlM_cons, List.foldlM_cons, answer_bind, Query.answer_bind]
    obtain ⟨asked, same, single, fresh, kept⟩ := each value id noted registry
    rw [same]
    rcases reply : (step value id).answer library registry with ⟨failure | middle, grown⟩
    · exact ⟨asked, rfl, single, fresh, fun _ wrong => nomatch wrong⟩
    · have first := kept middle (congrArg Prod.fst reply)
      obtain ⟨more, again, apart, later, whole⟩ := ih middle (noted ++ asked) grown
      refine ⟨asked ++ more, ?_, ?_, ?_, ?_⟩
      · simpa using again
      · refine List.nodup_append.mpr ⟨single, apart, ?_⟩
        rintro other member _ also rfl
        exact (later other also).2 (first (List.mem_append_right _ member))
      · intro other member
        rcases List.mem_append.mp member with early | late
        · exact fresh other early
        · obtain ⟨outside, unseen⟩ := later other late
          exact ⟨outside, fun old => unseen (first (List.mem_append_left _ old))⟩
      · intro result done
        have further := whole result done
        intro other member
        rcases List.mem_append.mp member with old | noted
        · exact further (List.mem_append_left _ (first (List.mem_append_left _ old)))
        · rcases List.mem_append.mp noted with early | late
          · exact further (List.mem_append_left _ (first (List.mem_append_right _ early)))
          · exact further (List.mem_append_right _ late)

theorem follows_asking {next : ResourceId → Query (List ResourceId)} {id : ResourceId}
    {noting : List ResourceId → Noting α} {query : List ResourceId → Query α}
    (fresh : id ∉ barred ∧ id ∉ before)
    (rest : ∀ ids, Follows library barred (before ++ [id]) order (noting ids) (query ids)) :
    Follows library barred before order (asking next id >>= noting) (next id >>= query) := by
  intro noted registry
  rw [answer_bind, answer_asking, Query.answer_bind]
  rcases (next id).answer library registry with ⟨failure | ids, grown⟩
  · refine ⟨[id], rfl, by simp, ?_, fun _ wrong => nomatch wrong⟩
    intro other member
    rwa [List.mem_singleton.mp member]
  · obtain ⟨asked, same, single, apart, kept⟩ := rest ids (noted ++ [id]) grown
    refine ⟨id :: asked, ?_, ?_, ?_, fun value done => ?_⟩
    · simpa using same
    · refine List.nodup_cons.mpr ⟨fun again => ?_, single⟩
      exact (apart id again).2 (by simp)
    · intro other member
      rcases List.mem_cons.mp member with rfl | later
      · exact fresh
      · obtain ⟨outside, unseen⟩ := apart other later
        exact ⟨outside, fun old => unseen (List.mem_append_left _ old)⟩
    · simpa using kept value done

theorem follows_leave {id : ResourceId} {noting : Noting (Walk ResourceId)}
    {query : Query (Walk ResourceId)}
    (inner : Follows library (id :: barred) before Walk.order noting query) :
    Follows library barred (before ++ [id]) Walk.order
      (noting >>= fun walk => pure (walk.leave id))
      (query >>= fun walk => pure (walk.leave id)) := by
  intro noted registry
  obtain ⟨asked, same, single, apart, kept⟩ := inner noted registry
  have fresh : ∀ other ∈ asked, other ∉ barred ∧ other ∉ before ++ [id] := by
    intro other member
    obtain ⟨outside, unseen⟩ := apart other member
    simp only [List.mem_cons, not_or] at outside
    simp [outside, unseen]
  rw [answer_bind, Query.answer_bind, same]
  rcases reply : query.answer library registry with ⟨failure | walk, grown⟩
  · exact ⟨asked, rfl, single, fresh, fun _ wrong => nomatch wrong⟩
  · refine ⟨asked, rfl, single, fresh, fun value done => ?_⟩
    cases done
    have further := kept walk (congrArg Prod.fst reply)
    intro other member
    simp only [List.mem_append, List.mem_singleton] at member
    rcases member with (old | same) | later
    · exact List.mem_append_left _ (further (List.mem_append_left _ old))
    · exact List.mem_append_right _ (List.mem_singleton.mpr same)
    · exact List.mem_append_left _ (further (List.mem_append_right _ later))

section
variable (next : ResourceId → Query (List ResourceId)) (depth : Nat)

theorem follows_visit (above : List ResourceId) (walk : Walk ResourceId) (id : ResourceId) :
    Follows library above walk.order Walk.order (Walk.visit (asking next) depth above walk id)
      (Walk.visit next depth above walk id) := by
  induction depth generalizing above walk id with
  | zero => exact follows_pure (List.Subset.refl _)
  | succ depth ih =>
    rw [Walk.visit, Walk.visit]
    split
    · exact follows_pure (List.Subset.refl _)
    · next closed =>
      split
      · exact follows_pure (List.Subset.refl _)
      · next fresh =>
        refine follows_asking ⟨closed, fresh⟩ fun ids => follows_leave ?_
        exact follows_foldlM (fun walk other => ih (id :: above) walk other) ids walk

theorem follows_enter (order : List ResourceId) (id : ResourceId) :
    Follows library [] order (fun after => after) (Walk.enter (asking next) depth order id)
      (Walk.enter next depth order id) := by
  induction depth generalizing order id with
  | zero => exact follows_pure (List.Subset.refl _)
  | succ depth ih =>
    rw [Walk.enter, Walk.enter]
    split
    · exact follows_pure (List.Subset.refl _)
    · next fresh =>
      refine follows_asking ⟨by simp, fresh⟩ fun ids => ?_
      exact follows_foldlM (fun after other => ih after other) ids (order ++ [id])

variable (starts noted : List ResourceId) (library : Library) (registry : Registry)

/-- A walk in post-order asks each node at most once for its neighbours. -/
theorem answer_postOrder_asking : ∃ asked : List ResourceId, asked.Nodup ∧
    (Walk.postOrder depth (asking next) starts).answer library noted registry =
      (((Walk.postOrder depth next starts).answer library registry).1, noted ++ asked,
        ((Walk.postOrder depth next starts).answer library registry).2) := by
  obtain ⟨asked, same, single, _⟩ :=
    follows_foldlM (follows_visit next depth []) starts Walk.none noted registry
  exact ⟨asked, single, same⟩

theorem answer_preOrder_asking : ∃ asked : List ResourceId, asked.Nodup ∧
    (Walk.preOrder depth (asking next) starts).answer library noted registry =
      (((Walk.preOrder depth next starts).answer library registry).1, noted ++ asked,
        ((Walk.preOrder depth next starts).answer library registry).2) := by
  obtain ⟨asked, same, single, _⟩ :=
    follows_foldlM (follows_enter next depth) starts [] noted registry
  exact ⟨asked, single, same⟩

end
end Noting
end ResourceLibrary
