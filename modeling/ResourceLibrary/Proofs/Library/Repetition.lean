import ResourceLibrary.Proofs.Library.OrderAgreement

/-!
Asking again. What a query has found it finds again at any later time, since all that it registers
is kept. Main statement: a walk that was answered is the walk over the neighbours as they are found
at any later time, so its order holds, each once, the nodes that its starts reach along these.
-/

namespace ResourceLibrary
open Registry (Grows Reached)

namespace World
variable {library : Library} {world : World library} {i j : ResourceId}

theorem Same.eq_of_grows (same : world.Same i j) (grows : Grows library world.left world.right) :
    i = j := by
  have here := diagonal_same world.leftReached same.lt_next.1
  have since : (diagonal world.leftReached).Later world := ⟨.refl, grows⟩
  exact world.biUnique_same.2 (lasting_same since here) same

end World

namespace Query
variable {library : Library} {registry grown : Registry}

section
variable {α β : Type}

theorem answer_bind_eq_ok_iff {query : Query α} {next : α → Query β} {value : β} :
    (query >>= next).answer library registry = (.ok value, grown) ↔
      ∃ first middle, query.answer library registry = (.ok first, middle) ∧
        (next first).answer library middle = (.ok value, grown) := by
  rw [answer_bind]
  rcases query.answer library registry with ⟨_ | first, middle⟩
  · simp
  · simp

theorem forall₂_of_answer_mapM {step : α → Query β} (growing : ∀ item, Growing (step item))
    {items : List α} {values : List β}
    (given : (items.mapM step).answer library registry = (.ok values, grown)) :
    List.Forall₂ (fun item value => ∃ before after, Grows library registry before ∧
      (step item).answer library before = (.ok value, after) ∧ Grows library after grown)
      items values := by
  induction items generalizing registry values with
  | nil =>
    cases given
    exact .nil
  | cons item rest ih =>
    rw [List.mapM_cons] at given
    obtain ⟨value, middle, asked, further⟩ := answer_bind_eq_ok_iff.mp given
    obtain ⟨others, last, behind, done⟩ := answer_bind_eq_ok_iff.mp further
    cases done
    have first := (growing item).grows asked
    have onward := (growing_mapM growing rest).grows behind
    refine .cons ⟨registry, middle, .refl, asked, onward⟩ ((ih behind).imp ?_)
    rintro other found ⟨before, after, since, answered, still⟩
    exact ⟨before, after, first.trans since, answered, still⟩

end

def Finds (library : Library) (registry : Registry) (query : Query (List ResourceId))
    (id : ResourceId) : Prop :=
  ∃ ids grown, query.answer library registry = (.ok ids, grown) ∧ id ∈ ids

def found (library : Library) (registry : Registry) (query : Query (List ResourceId)) :
    List ResourceId :=
  match query.answer library registry with
  | (.ok ids, _) => ids
  | (.error _, _) => []

theorem found_eq_of_answer {query : Query (List ResourceId)} {ids : List ResourceId}
    (given : query.answer library registry = (.ok ids, grown)) :
    found library registry query = ids := by
  rw [found, given]

theorem answer_of_shown {query : Query (List ResourceId)} {ids : List ResourceId}
    (shown : (query.answer library .empty).1.toOption = some ids ∧
      (query.answer library .empty).2.nodes.isEmpty = true ∧
      (query.answer library .empty).2.urns = []) :
    query.answer library .empty = (.ok ids, .empty) := by
  generalize query.answer library .empty = reply at shown ⊢
  rcases reply with ⟨_ | found, nodes, urns⟩
  · cases shown.1
  · obtain ⟨same, nothing, unmet⟩ := shown
    cases same
    cases unmet
    cases Array.isEmpty_iff.mp nothing
    rfl

theorem mem_found_iff {query : Query (List ResourceId)} {id : ResourceId} :
    id ∈ found library registry query ↔ Finds library registry query id := by
  unfold found Finds
  rcases query.answer library registry with ⟨_ | ids, grown⟩
  · simp
  · simp

/-- From this time on the query is always answered, with these resources. -/
def Settled (library : Library) (registry : Registry) (query : Query (List ResourceId))
    (ids : List ResourceId) : Prop :=
  ∀ later, Grows library registry later → ∃ last, query.answer library later = (.ok ids, last)

theorem Settled.found {query : Query (List ResourceId)} {ids : List ResourceId}
    (settled : Settled library registry query ids) : found library registry query = ids := by
  obtain ⟨_, given⟩ := settled registry .refl
  exact found_eq_of_answer given

theorem Settled.finds_iff {query : Query (List ResourceId)} {ids : List ResourceId}
    (settled : Settled library registry query ids) {id : ResourceId} :
    Finds library registry query id ↔ id ∈ ids := by
  rw [← mem_found_iff, settled.found]

theorem Settled.later {query : Query (List ResourceId)} {ids : List ResourceId}
    (settled : Settled library registry query ids) {later : Registry}
    (grows : Grows library registry later) : Settled library later query ids :=
  fun last since => settled last (grows.trans since)

/-- What agrees with itself under a relation of numbers that correspond is settled once it was
answered. -/
theorem settled_of_agree (reached : Reached library registry) {query : Query (List ResourceId)}
    {rel : World library → ResourceId → ResourceId → Prop}
    (same : ∀ world, (World.diagonal reached).Later world → ∀ i j, rel world i j → world.Same i j)
    (agree : ∀ world, (World.diagonal reached).Later world → world.left = registry →
      Agree world (fun later => List.Forall₂ (rel later)) query query)
    {ids : List ResourceId} (given : query.answer library registry = (.ok ids, grown))
    (grows : Grows library registry grown) : Settled library grown query ids := by
  intro later since
  let side : World library := ⟨registry, later, reached, reached.grows (grows.trans since)⟩
  have begun : (World.diagonal reached).Later side := ⟨.refl, grows.trans since⟩
  obtain ⟨last, others, onward, same', again, both⟩ := answered_of_agree (agree side begun rfl) given
  have kept : Grows library last.left last.right := by
    rw [same']
    exact since.trans onward.2
  have alike : ids = others := by
    rw [← List.forall₂_eq_eq_eq]
    exact both.imp fun i j related => (same last (begun.trans onward) i j related).eq_of_grows kept
  rw [← alike] at again
  exact ⟨last.right, again⟩

/-- Neighbours for a walk. `inside` tells the nodes that the walk may come to: what is found there is
settled and lies inside, and only nodes known at the start have neighbours. -/
structure Steady (library : Library) (start : Registry) (inside : Registry → ResourceId → Prop)
    (next : ResourceId → Query (List ResourceId)) : Prop where
  growing : ∀ id, Growing (next id)
  lasts : ∀ {before after id}, Grows library before after → inside before id → inside after id
  stays : ∀ {before after id ids}, Grows library start before → inside before id →
    (next id).answer library before = (.ok ids, after) → ∀ other ∈ ids, inside after other
  known : ∀ {before after id ids}, Grows library start before → inside before id →
    (next id).answer library before = (.ok ids, after) → ids ≠ [] → id < start.next library
  settled : ∀ {before after id ids}, Grows library start before → inside before id →
    (next id).answer library before = (.ok ids, after) → Settled library after (next id) ids

def Itself (library : Library) (rel : World library → ResourceId → ResourceId → Prop)
    (registry : Registry) (id : ResourceId) : Prop :=
  ∃ reached : Reached library registry, rel (World.diagonal reached) id id

theorem steady_of_agree {start : Registry} (reached : Reached library start)
    {rel : World library → ResourceId → ResourceId → Prop} (lasting : World.Lasting rel)
    (same : ∀ world, (World.diagonal reached).Later world → ∀ i j, rel world i j → world.Same i j)
    {next : ResourceId → Query (List ResourceId)} (growing : ∀ id, Growing (next id))
    (step : ∀ world, (World.diagonal reached).Later world → ∀ i j, rel world i j →
      Agree world (fun later xs ys => List.Forall₂ (rel later) xs ys ∧
        (xs ≠ [] → i < start.next library ∧ j < start.next library)) (next i) (next j)) :
    Steady library start (Itself library rel) next := by
  -- One registry seen from two sides tells what is found at all.
  have alone : ∀ {before after id ids}, Grows library start before → Itself library rel before id →
      (next id).answer library before = (.ok ids, after) →
      (∀ other ∈ ids, Itself library rel after other) ∧ (ids ≠ [] → id < start.next library) := by
    rintro before after id ids since ⟨here, itself⟩ given
    obtain ⟨⟨left, right, leftReached, _⟩, _, first, second, both, known⟩ := related_of_agree
      (step (World.diagonal here) ⟨since, since⟩ id id itself) given given
    obtain rfl : left = after := first
    obtain rfl : right = left := second
    exact ⟨fun other member => ⟨leftReached, List.forall₂_same.mp both other member⟩,
      fun some => (known some).1⟩
  refine ⟨growing, ?lasts, fun since inside given => (alone since inside given).1,
    fun since inside given => (alone since inside given).2, ?settled⟩
  case lasts =>
    rintro before after id grows ⟨here, itself⟩
    exact ⟨here.grows grows, lasting ⟨grows, grows⟩ itself⟩
  case settled =>
    rintro before after id ids since ⟨here, itself⟩ given
    have grows := (growing id).grows given
    have begun : (World.diagonal reached).Later (World.diagonal here) := ⟨since, since⟩
    have agree : ∀ world, (World.diagonal here).Later world → world.left = before →
        Agree world (fun later => List.Forall₂ (rel later)) (next id) (next id) := by
      intro world later _
      apply (step world (begun.trans later) id id (lasting later itself)).imp
      exact fun _ _ _ _ both => both.1
    exact settled_of_agree here (fun world later => same world (begun.trans later)) agree given
      grows

section
variable {start : Registry} {inside : Registry → ResourceId → Prop}
  {next : ResourceId → Query (List ResourceId)} (steady : Steady library start inside next)

structure Asked (library : Library) (start : Registry) (inside : Registry → ResourceId → Prop)
    (next : ResourceId → Query (List ResourceId)) (registry : Registry) (id : ResourceId) : Prop where
  inside : inside registry id
  known : found library registry (next id) ≠ [] → id < start.next library
  settled : Settled library registry (next id) (found library registry (next id))

/-- What a walk over neighbours that are asked for on the way makes of `walk`. `known` is the same
walk over edges that are known beforehand. -/
structure Followed (library : Library) (start : Registry) (inside : Registry → ResourceId → Prop)
    (next : ResourceId → Query (List ResourceId)) (walk result : Walk ResourceId) (after : Registry)
    (known : (ResourceId → List ResourceId) → Walk ResourceId) : Prop where
  kept : walk.order ⊆ result.order
  asked : ∀ id ∈ result.order, id ∈ walk.order ∨ Asked library start inside next after id
  same : ∀ edges final, Grows library after final →
    (∀ id ∈ result.order, edges id = found library final (next id)) → known edges = result

include steady

theorem asked_of_answer {before : Registry} (since : Grows library start before) {id : ResourceId}
    (here : inside before id) {ids : List ResourceId}
    (given : (next id).answer library before = (.ok ids, registry)) :
    Asked library start inside next registry id := by
  have settled := steady.settled since here given
  have grows := (steady.growing id).grows given
  refine ⟨steady.lasts grows here, ?_, ?_⟩
  · rw [settled.found]
    exact steady.known since here given
  · rw [settled.found]
    exact settled

theorem Asked.later {id : ResourceId} (asked : Asked library start inside next registry id)
    {later : Registry} (grows : Grows library registry later) :
    Asked library start inside next later id := by
  have settled := asked.settled.later grows
  refine ⟨steady.lasts grows asked.inside, ?_, ?_⟩
  · rw [settled.found]
    exact asked.known
  · rw [settled.found]
    exact settled

theorem followed_foldlM {step : Walk ResourceId → ResourceId → Query (Walk ResourceId)}
    {known : (ResourceId → List ResourceId) → Walk ResourceId → ResourceId → Walk ResourceId}
    (growing : ∀ walk id, Growing (step walk id))
    (each : ∀ {walk result : Walk ResourceId} {id before after}, Grows library start before →
      inside before id → (step walk id).answer library before = (.ok result, after) →
      Followed library start inside next walk result after (known · walk id))
    {ids : List ResourceId} {walk result : Walk ResourceId} {before after : Registry}
    (since : Grows library start before) (here : ∀ id ∈ ids, inside before id)
    (given : (ids.foldlM step walk).answer library before = (.ok result, after)) :
    Followed library start inside next walk result after
      (fun edges => ids.foldl (known edges) walk) := by
  induction ids generalizing walk before with
  | nil =>
    cases given
    exact ⟨List.Subset.refl _, fun id member => .inl member, fun _ _ _ _ => rfl⟩
  | cons id rest ih =>
    rw [List.foldlM_cons] at given
    obtain ⟨mid, middle, asked, further⟩ := answer_bind_eq_ok_iff.mp given
    have grows := (growing walk id).grows asked
    have onward := (growing_foldlM growing rest mid).grows further
    have first := each since (here id (by simp)) asked
    have behind := ih (since.trans grows)
      (fun other member => steady.lasts grows (here other (by simp [member]))) further
    refine ⟨List.Subset.trans first.kept behind.kept, ?_, ?_⟩
    · intro other member
      rcases behind.asked other member with earlier | asked
      · exact (first.asked other earlier).imp_right fun asked => asked.later steady onward
      · exact .inr asked
    · intro edges final still same
      rw [List.foldl_cons, first.same edges final (onward.trans still)
        fun other member => same other (behind.kept member)]
      exact behind.same edges final still same

omit steady in
theorem followed_of_same {walk result : Walk ResourceId} {after : Registry}
    {known : (ResourceId → List ResourceId) → Walk ResourceId} (order : result.order = walk.order)
    (same : ∀ edges, known edges = result) :
    Followed library start inside next walk result after known := by
  refine ⟨?_, fun id member => .inl (order ▸ member), fun edges _ _ _ => same edges⟩
  rw [order]
  exact List.Subset.refl _

theorem followed_visit {depth : Nat} {above : List ResourceId} {walk result : Walk ResourceId}
    {id : ResourceId} {before after : Registry} (since : Grows library start before)
    (here : inside before id)
    (given : (Walk.visit next depth above walk id).answer library before = (.ok result, after)) :
    Followed library start inside next walk result after fun edges =>
      (Walk.visit (m := Id) (fun id => pure (edges id)) depth above walk id).run := by
  induction depth generalizing above walk result id before after with
  | zero =>
    cases given
    exact followed_of_same rfl fun _ => rfl
  | succ depth ih =>
    rw [Walk.visit] at given
    simp only [Walk.visit_succ]
    by_cases closes : id ∈ above
    · rw [if_pos closes] at given
      cases given
      simp only [if_pos closes]
      exact followed_of_same rfl fun _ => rfl
    · rw [if_neg closes] at given
      by_cases done : id ∈ walk.order
      · rw [if_pos done] at given
        cases given
        simp only [if_neg closes, if_pos done]
        exact followed_of_same rfl fun _ => rfl
      · rw [if_neg done] at given
        simp only [if_neg closes, if_neg done]
        obtain ⟨ids, middle, asked, further⟩ := answer_bind_eq_ok_iff.mp given
        obtain ⟨inner, last, visited, left⟩ := answer_bind_eq_ok_iff.mp further
        cases left
        have grows := (steady.growing id).grows asked
        have growing := growing_visit steady.growing depth (id :: above)
        have onward := (growing_foldlM growing ids walk).grows visited
        have followed := followed_foldlM steady growing ih (since.trans grows)
          (steady.stays since here asked) visited
        refine ⟨?_, ?_, ?_⟩
        · exact List.Subset.trans followed.kept (List.subset_append_left _ _)
        · intro other member
          rcases List.mem_append.mp member with earlier | itself
          · exact followed.asked other earlier
          · rw [List.mem_singleton.mp itself]
            exact .inr ((asked_of_answer steady since here asked).later steady onward)
        · intro edges final rest same
          have first : edges id = ids := by
            rw [same id (by simp [Walk.leave])]
            exact ((steady.settled since here asked).later (onward.trans rest)).found
          rw [first, followed.same edges final rest fun other member =>
            same other (List.mem_append_left _ member)]

def edgesAmong (library : Library) (registry : Registry)
    (next : ResourceId → Query (List ResourceId)) (nodes : List ResourceId) (id : ResourceId) :
    List ResourceId :=
  if id ∈ nodes then found library registry (next id) else []

/-- A walk that was answered is the walk over the edges as they are found at any later time. -/
theorem followed_postOrder {depth : Nat} {starts : List ResourceId}
    (here : ∀ id ∈ starts, inside start id) {walk : Walk ResourceId}
    (given : (Walk.postOrder depth next starts).answer library start = (.ok walk, grown)) :
    (∀ id ∈ walk.order, Asked library start inside next grown id) ∧
      ∀ final, Grows library grown final →
        Walk.traced (edgesAmong library final next walk.order) depth starts = walk := by
  have followed := followed_foldlM steady (growing_visit steady.growing depth [])
    (followed_visit steady) .refl here given
  refine ⟨fun id member => (followed.asked id member).resolve_left (by simp [Walk.none]), ?_⟩
  intro final rest
  have same := followed.same (edgesAmong library final next walk.order) final rest
    fun id member => if_pos member
  rw [Walk.traced, Walk.postOrder, List.idRun_foldlM]
  exact same

section
variable {starts : List ResourceId} (here : ∀ id ∈ starts, inside start id)
  {walk : Walk ResourceId} (given : (Walk.postOrder (start.next library + 1) next starts).answer
    library start = (.ok walk, grown)) {final : Registry} (rest : Grows library grown final)
include here given rest

theorem bounded_edgesAmong :
    Walk.Bounded (edgesAmong library final next walk.order) (fun _ => True)
      (List.range (start.next library)) := by
  refine ⟨fun _ _ _ _ => trivial, ?_⟩
  intro id _ other edge
  unfold edgesAmong at edge
  split at edge
  · next member =>
    have asked := ((followed_postOrder steady here given).1 id member).later steady rest
    exact List.mem_range.mpr (asked.known (List.ne_nil_of_mem edge))
  · cases edge

theorem passed_of_answer :
    Walk.Passed (edgesAmong library final next walk.order) [] starts Walk.none walk := by
  have bounded := bounded_edgesAmong steady here given rest
  have room : (List.range (start.next library)).length < start.next library + 1 := by simp
  have passed : Walk.Passed _ [] starts Walk.none (Walk.traced _ (start.next library + 1) starts) :=
    Walk.passed_traced bounded room fun _ _ => trivial
  rwa [(followed_postOrder steady here given).2 final rest] at passed

theorem mem_order_of_answer (id : ResourceId) :
    id ∈ walk.order ↔ ∃ first ∈ starts,
      Relation.ReflTransGen (fun node other => Finds library final (next node) other) first id := by
  have passed := passed_of_answer steady here given rest
  constructor
  · intro member
    obtain ⟨first, begins, way⟩ := (passed.reached id member).resolve_left (by simp [Walk.none])
    refine ⟨first, begins, Relation.ReflTransGen.mono (fun node other edge => ?_) _ _ way⟩
    unfold Walk.Edge edgesAmong at edge
    split at edge
    · exact mem_found_iff.mp edge
    · cases edge
  · rintro ⟨first, begins, way⟩
    induction way with
    | refl => exact (passed.left first begins).resolve_right (by simp)
    | tail _ step ih =>
      refine (passed.sound.covered _ ih _ ?_).resolve_right (by simp)
      rw [edgesAmong, if_pos ih]
      exact mem_found_iff.mpr step

end

/-- A closure that was answered holds, each once, what its starts reach, and whatever is in it has
neighbours that can be found. -/
theorem closure_of_answer {starts : List ResourceId} (here : ∀ id ∈ starts, inside start id)
    {order : List ResourceId}
    (given : (closure starts next).answer library start = (.ok order, grown)) :
    order.Nodup ∧ (∀ id ∈ order, Asked library start inside next grown id) ∧
      ∀ final, Grows library grown final → ∀ id, id ∈ order ↔ ∃ first ∈ starts,
        Relation.ReflTransGen (fun node other => Finds library final (next node) other)
          first id := by
  rw [closure, answer_bind, answer_depth] at given
  obtain ⟨walk, last, walked, done⟩ := answer_bind_eq_ok_iff.mp given
  cases done
  refine ⟨(passed_of_answer steady here walked .refl).sound.single,
    (followed_postOrder steady here walked).1, ?_⟩
  exact fun final rest => mem_order_of_answer steady here walked rest

end

section
variable {start : Registry} {inside : Registry → ResourceId → Prop}
  {providers : ResourceId → Scope → Query (List ResourceId)}

theorem settled_of_gather (steady : ∀ tier, Steady library start inside (providers · tier))
    {before : Registry} (since : Grows library start before) {id : ResourceId}
    (here : inside before id) {tiers : List Scope} {ids : List ResourceId}
    (given : (gather tiers (providers id)).answer library before = (.ok ids, grown)) :
    (∀ tier ∈ tiers, ∃ others, Settled library grown (providers id tier) others) ∧
      ∀ other, other ∈ ids ↔ ∃ tier ∈ tiers, Finds library grown (providers id tier) other := by
  obtain ⟨lists, last, gathered, done⟩ := answer_bind_eq_ok_iff.mp given
  cases done
  have growing : ∀ tier, Growing (providers id tier) := fun tier => (steady tier).growing id
  have each : List.Forall₂ (fun tier others =>
      Settled library grown (providers id tier) others) tiers lists := by
    refine (forall₂_of_answer_mapM growing gathered).imp ?_
    rintro tier others ⟨first, second, begun, asked, onward⟩
    have settled := (steady tier).settled (since.trans begun) ((steady tier).lasts begun here) asked
    exact settled.later onward
  constructor
  · intro tier member
    obtain ⟨others, _, settled⟩ := exists_mem_of_forall₂ each member
    exact ⟨others, settled⟩
  · intro other
    rw [mem_distinct]
    clear gathered given
    induction each with
    | nil => simp
    | cons head _ ih =>
      rw [List.flatten_cons, List.mem_append, ih, ← head.finds_iff]
      simp

end
end Query
end ResourceLibrary
