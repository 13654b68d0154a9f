import ResourceLibrary.Proofs.Library.WalkAgreement

/-!
Providers in two registries. Main statements: nodes that correspond have providers that correspond,
tier by tier, over all tiers, and with everything reached from them; what is registered on the way
is a resource of the same coordinate on both sides.
-/

namespace ResourceLibrary
open Registry (Grows Reached Within)

theorem exists_mem_of_forall₂ {α β : Type} {rel : α → β → Prop} {xs : List α} {ys : List β}
    (both : List.Forall₂ rel xs ys) {x : α} (member : x ∈ xs) : ∃ y ∈ ys, rel x y := by
  induction both with
  | nil => cases member
  | cons head _ ih =>
    rcases List.mem_cons.mp member with rfl | further
    · exact ⟨_, List.mem_cons_self, head⟩
    · obtain ⟨y, inside, related⟩ := ih further
      exact ⟨y, List.mem_cons_of_mem _ inside, related⟩

theorem forall₂_filter {α β : Type} {rel : α → β → Prop} {p : α → Bool} {q : β → Bool}
    (alike : ∀ x y, rel x y → p x = q y) {xs : List α} {ys : List β}
    (both : List.Forall₂ rel xs ys) : List.Forall₂ rel (xs.filter p) (ys.filter q) :=
  List.rel_filter (fun x y related => by simp only [alike x y related]) both

section
variable {α β : Type} [DecidableEq α] [DecidableEq β] {rel : α → β → Prop}
  (unique : Relator.BiUnique rel)
include unique

theorem forall₂_addNew {xs : List α} {ys : List β} (both : List.Forall₂ rel xs ys) {x : α} {y : β}
    (related : rel x y) : List.Forall₂ rel (addNew xs x) (addNew ys y) := by
  have present : x ∈ xs ↔ y ∈ ys := List.rel_mem unique related both
  unfold addNew
  by_cases member : x ∈ xs
  · rw [if_pos member, if_pos (present.mp member)]
    exact both
  · rw [if_neg member, if_neg (fun also => member (present.mpr also))]
    exact List.rel_append both (.cons related .nil)

theorem forall₂_foldl_addNew {items : List α} {others : List β}
    (related : List.Forall₂ rel items others) {xs : List α} {ys : List β}
    (both : List.Forall₂ rel xs ys) :
    List.Forall₂ rel (items.foldl addNew xs) (others.foldl addNew ys) := by
  induction related generalizing xs ys with
  | nil => exact both
  | cons head _ ih => exact ih (forall₂_addNew unique both head)

theorem forall₂_distinct {items : List α} {others : List β}
    (related : List.Forall₂ rel items others) :
    List.Forall₂ rel (distinct items) (distinct others) :=
  forall₂_foldl_addNew unique related .nil

end

namespace World
variable {library : Library} {world base later : World library} {i j : ResourceId}

/-- Lists that correspond, and are empty but for nodes that corresponded before. -/
def Found (base : World library) (i j : ResourceId) (world : World library)
    (xs ys : List ResourceId) : Prop :=
  List.Forall₂ (base.Near world) xs ys ∧ (xs ≠ [] → base.Same i j)

theorem lasting_found (base : World library) (i j : ResourceId) : Lasting (Found base i j) := by
  intro world later xs ys since found
  exact ⟨lasting_forall₂ (lasting_near base) since found.1, found.2⟩

theorem Found.known (found : Found base i j world xs ys) (since : base.Later later) :
    List.Forall₂ (base.Near world) xs ys ∧
      (xs ≠ [] → i < later.left.next library ∧ j < later.right.next library) := by
  refine ⟨found.1, fun some => ?_⟩
  obtain ⟨left, right⟩ := (found.2 some).lt_next
  exact ⟨Nat.lt_of_lt_of_le left since.1.next_le, Nat.lt_of_lt_of_le right since.2.next_le⟩

theorem Same.frozen_or_synthetic (same : world.Same i j) :
    i = j ∧ i < library.frozen.size ∨ (library.node world.left i).Synthetic ∧
      (library.node world.right j).Synthetic := by
  rcases same with frozen | ⟨urn, level, left, right⟩
  · exact .inl frozen
  · exact .inr ⟨synthetic_of_within world.leftReached left,
      synthetic_of_within world.rightReached right⟩

theorem Near.children (tree : library.arena.IsTree) (since : base.Later world)
    (near : base.Near world i j) :
    List.Forall₂ base.Same (library.node world.left i).children
      (library.node world.right j).children := by
  rcases near with same | leaf
  · exact (same.alike_later tree since).children
  · rw [Node.children_of_plain leaf.isPlain.1, Node.children_of_plain leaf.isPlain.2]
    exact .nil

end World

namespace Query
open World
variable {library : Library} {world base : World library} {i j : ResourceId}

theorem answer_anonymous_of_parse (library : Library) (registry : Registry) {urn : String}
    {coordinate : Coordinate} (read : Coordinate.parse urn = .ok coordinate)
    (properties : Properties) :
    ∃ leaf grown, (anonymous urn properties).answer library registry = (.ok leaf, grown) ∧
      grown.urns.lookup urn = some leaf := by
  rw [answer_anonymous, read]
  cases found : registry.urns.lookup urn with
  | some leaf => exact ⟨leaf, registry, rfl, found⟩
  | none => exact ⟨_, _, rfl, by rw [Registry.lookup_withBatch, if_pos rfl]⟩

theorem answer_anonymous_of_not_parse {registry : Registry} (reached : Reached library registry)
    {urn : String} {failure : Failure} (unread : Coordinate.parse urn = .error failure)
    (properties : Properties) :
    (anonymous urn properties).answer library registry = (.error failure, registry) := by
  rw [answer_anonymous, unread]
  cases found : registry.urns.lookup urn with
  | some leaf =>
    obtain ⟨coordinate, _, _, stored⟩ := reached.stored found
    have read := stored.read
    rw [unread] at read
    cases read
  | none => rfl

theorem agree_anonymous (world : World library) (urn : String) (properties changed : Properties) :
    Agree world Leaf (anonymous urn properties) (anonymous urn changed) := by
  cases read : Coordinate.parse urn with
  | ok coordinate =>
    obtain ⟨i, left, leftAnswer, leftKept⟩ :=
      answer_anonymous_of_parse library world.left read properties
    obtain ⟨j, right, rightAnswer, rightKept⟩ :=
      answer_anonymous_of_parse library world.right read changed
    have leftGrows := growing_anonymous urn properties library world.left
    have rightGrows := growing_anonymous urn changed library world.right
    rw [leftAnswer] at leftGrows
    rw [rightAnswer] at rightGrows
    refine ⟨⟨left, right, world.leftReached.grows leftGrows,
      world.rightReached.grows rightGrows⟩, ⟨leftGrows, rightGrows⟩, .inl ⟨i, j, ?_⟩⟩
    exact ⟨leftAnswer, rightAnswer, urn, leftKept, rightKept⟩
  | error failure =>
    refine ⟨world, .refl world, .inr ⟨failure, ?_, ?_⟩⟩
    · exact answer_anonymous_of_not_parse world.leftReached read properties
    · exact answer_anonymous_of_not_parse world.rightReached read changed

section
variable (tree : library.arena.IsTree)
include tree

theorem descend_frozen (world : World library) {start : ResourceId}
    (startFrozen : start < library.frozen.size) (reference : String) (names : List String) :
    ∀ (passed : List String) {id : ResourceId}, id < library.frozen.size →
      descend (library.node world.left) start reference passed id names =
        descend (library.node world.right) start reference passed id names ∧
      ∀ found, descend (library.node world.left) start reference passed id names = .ok found →
        found < library.frozen.size := by
  induction names with
  | nil =>
    intro passed id frozen
    refine ⟨rfl, fun found done => ?_⟩
    cases done
    exact frozen
  | cons name rest ih =>
    intro passed id frozen
    rw [descend, descend, ← Library.node_eq_of_lt frozen world.left world.right,
      ← Library.node_eq_of_lt startFrozen world.left world.right]
    split
    · exact ⟨rfl, fun found done => by cases done⟩
    · split
      · exact ⟨rfl, fun found done => by cases done⟩
      · next child below =>
        obtain ⟨inner, there, _⟩ := tree.child (Library.node?_of_lt frozen world.left) below
        exact ih _ (Library.lt_of_node? there)

theorem resolve_frozen (world : World library) {start : ResourceId}
    (frozen : start < library.frozen.size) (reference : String) :
    (∃ found < library.frozen.size,
      resolve (library.node world.left) start reference = .ok found ∧
      resolve (library.node world.right) start reference = .ok found) ∨
    ∃ failure, resolve (library.node world.left) start reference = .error failure ∧
      resolve (library.node world.right) start reference = .error failure := by
  unfold resolve
  cases ResourcePath.parse reference with
  | error failure => exact .inr ⟨failure, rfl, rfl⟩
  | ok path =>
    obtain ⟨same, inside⟩ := descend_frozen tree world frozen reference path.segments [] frozen
    simp only [bind, Except.bind]
    rw [← same]
    cases done : descend (library.node world.left) start reference [] start path.segments with
    | error failure => exact .inr ⟨failure, rfl, rfl⟩
    | ok found => exact .inl ⟨found, inside found done, rfl, rfl⟩

theorem agree_lookup (world : World library) {start : ResourceId}
    (frozen : start < library.frozen.size) (reference : String) :
    Agree world (fun _ i j => i = j ∧ i < library.frozen.size) (lookup start reference)
      (lookup start reference) := by
  refine agree_nodes_bind (agree_ofExcept ?_)
  rcases resolve_frozen tree world frozen reference with ⟨found, inside, left, right⟩ | failed
  · exact .inl ⟨found, found, left, right, rfl, inside⟩
  · exact .inr failed

theorem enclosing?_eq (world : World library) {node : Node}
    (here : library.arena.node? i = some node) :
    enclosing? (library.node world.left) node = enclosing? (library.node world.right) node := by
  unfold enclosing?
  cases up : node.parent with
  | none => rfl
  | some above =>
    obtain ⟨outer, there, _⟩ := tree.joined_of_parent here up
    rw [Option.map_some, Option.map_some,
      Library.node_eq_of_lt (Library.lt_of_node? there) world.left world.right]

theorem agree_included (base world : World library) {node : Node}
    (here : library.arena.node? i = some node) (scope : Scope) (category : Option Category)
    (entry : Include) :
    Agree world base.Near (included node scope category entry)
      (included node scope category entry) := by
  unfold included
  split
  · apply (agree_mapFailure (agree_anonymous world _ _ _) _).imp
    exact fun later since a b leaf => .inr leaf
  · apply agree_nodes_bind
    have same : entry.reference (library.node world.left) node =
        entry.reference (library.node world.right) node := by
      unfold Include.reference
      rw [enclosing?_eq tree world here]
    simp only
    rw [same]
    apply (agree_mapFailure
      (agree_lookup tree world (Library.size_pos_of_isTree tree) _) _).imp
    rintro later since a b ⟨rfl, frozen⟩
    exact .inl (base.same_of_lt frozen)

theorem agree_declared (since : base.Later world) (near : base.Near world i j) (tier : Scope)
    (category : Option Category) :
    Agree world (base.Found i j) (declared i tier category) (declared j tier category) := by
  apply agree_node_bind
  have alike := near.alike tree since
  have children := near.children tree since
  have presence := alike.isSome_header
  cases left : (library.node world.left i).header with
  | none =>
    rw [left] at presence
    have right : (library.node world.right j).header = none := by simpa using presence.symm
    rw [right]
    exact agree_pure ⟨.nil, fun some => absurd rfl some⟩
  | some header =>
    rw [left] at presence
    obtain ⟨other, right⟩ := Option.isSome_iff_exists.mp presence.symm
    rw [right]
    simp only
    have implicit : List.Forall₂ base.Same
        (if tier = .runtime && isImplicit category then (library.node world.left i).children else [])
        (if tier = .runtime && isImplicit category then (library.node world.right j).children
          else []) := by
      split
      · exact children
      · exact .nil
    rcases near with same | leaf
    · have named : Agree world (fun later => List.Forall₂ (base.Near later))
          ((header.includes tier category).mapM
            (included (library.node world.left i) tier category))
          ((other.includes tier category).mapM
            (included (library.node world.right j) tier category)) := by
        rcases (lasting_same since same).frozen_or_synthetic with ⟨rfl, frozen⟩ | ⟨bare, also⟩
        · have here := Library.node?_of_lt frozen world.left
          rw [← Library.node_eq_of_lt frozen world.left world.right] at right ⊢
          rw [left] at right
          cases right
          refine agree_mapM (lasting_near base) ?_ (List.forall₂_same.mpr fun _ _ => rfl)
          rintro later _ entry _ rfl
          exact agree_included tree base later here tier category entry
        · rw [bare.bare.includes left, also.bare.includes right]
          exact agree_pure .nil
      apply agree_bind named
      intro later after xs ys found
      refine agree_pure ⟨?_, fun _ => same⟩
      refine forall₂_distinct (biUnique_near (since.trans after)) (List.rel_append found ?_)
      exact implicit.imp fun _ _ => .inl
    · obtain ⟨bare, also⟩ := leaf.synthetic
      rw [bare.bare.includes left, also.bare.includes right,
        Node.children_of_plain leaf.isPlain.1, Node.children_of_plain leaf.isPlain.2, ite_self]
      exact agree_pure ⟨.nil, fun some => absurd rfl some⟩

omit tree in
theorem agree_gather (since : base.Later world) {left right : Scope → Query (List ResourceId)}
    (each : ∀ later, world.Later later → ∀ tier,
      Agree later (base.Found i j) (left tier) (right tier)) (tiers : List Scope) :
    Agree world (base.Found i j) (gather tiers left) (gather tiers right) := by
  have gathered : Agree world (fun later => List.Forall₂ (base.Found i j later))
      (tiers.mapM left) (tiers.mapM right) := by
    refine agree_mapM (lasting_found base i j) ?_ (List.forall₂_same.mpr fun _ _ => rfl)
    rintro later after tier _ rfl
    exact each later after tier
  apply agree_bind gathered
  intro later after xss yss found
  have joined : List.Forall₂ (base.Near later) xss.flatten yss.flatten :=
    List.rel_flatten (found.imp fun _ _ => And.left)
  refine agree_pure ⟨forall₂_distinct (biUnique_near (since.trans after)) joined, ?_⟩
  intro some
  obtain ⟨x, member⟩ := List.exists_mem_of_ne_nil _ some
  obtain ⟨xs, inside, inner⟩ := List.mem_flatten.mp (mem_distinct.mp member)
  obtain ⟨ys, _, related⟩ := exists_mem_of_forall₂ found inside
  exact related.2 (List.ne_nil_of_mem inner)

theorem agree_needs (since : base.Later world) (near : base.Near world i j) :
    Agree world (fun later => List.Forall₂ (base.Near later)) (needs i) (needs j) := by
  have direct : Agree world (base.Found i j) (gather (Scope.tiers .test true) (declared i · none))
      (gather (Scope.tiers .test true) (declared j · none)) := by
    refine agree_gather since ?_ _
    intro later after tier
    exact agree_declared tree (since.trans after) (lasting_near base after near) tier none
  apply agree_bind direct
  intro start after starts others found
  have begun := since.trans after
  refine agree_closure (lasting_near base) ?_ ?_ found.1
  · intro later more
    exact biUnique_near (begun.trans more)
  · intro later more x y related
    have reached := begun.trans more
    refine (agree_gather reached ?_ _).imp fun last _ xs ys found => found.known begun
    intro last onward tier
    exact agree_declared tree (reached.trans onward) (lasting_near base onward related) tier none

/-- The module around a node that corresponds corresponds, seen from where both were known. -/
theorem alike_enclosing? (since : base.Later world) {a b : Node} (alike : a.Alike base.Same b) :
    Option.Rel (Node.Alike base.Same) (enclosing? (library.node world.left) a)
      (enclosing? (library.node world.right) b) := by
  unfold enclosing?
  rcases option_rel_cases alike.parent with ⟨left, right⟩ | ⟨i, j, left, right, related⟩
  · rw [left, right]
    exact .none
  · have outer := related.alike_later tree since
    rw [left, right, Option.map_some, Option.map_some, Option.filter_some, Option.filter_some,
      outer.isRoot]
    split
    · exact .some outer
    · exact .none

theorem agree_outerModules (since : base.Later world) {a b : Node} (path : a.path = b.path)
    (near : base.Near world i j) :
    Agree world (fun _ => List.Forall₂ base.Same) (outerModules a i) (outerModules b j) := by
  apply agree_nodes_bind
  simp only
  rw [← (near.alike tree since).isAnonymous]
  by_cases anonymous : (library.node world.left i).isAnonymous = true
  · rw [if_pos anonymous, if_pos anonymous]
    exact agree_pure .nil
  · rw [if_neg anonymous, if_neg anonymous]
    have same : base.Same i j := near.resolve_right fun leaf => anonymous leaf.isAnonymous.1
    have outer := alike_enclosing? tree since (same.alike_later tree since)
    rcases option_rel_cases outer with ⟨left, right⟩ | ⟨n, m, left, right, alike⟩
    · rw [left, right]
      exact agree_pure .nil
    · rw [left, right]
      simp only
      rw [← path, ← alike.path]
      split
      · exact agree_pure .nil
      · exact agree_pure (.cons alike.id .nil)

theorem agree_neededModules (since : base.Later world) {a b : Node} (path : a.path = b.path)
    (children : List.Forall₂ base.Same a.children b.children) :
    Agree world (fun _ => List.Forall₂ base.Same) (neededModules a) (neededModules b) := by
  have plain : Agree world (fun _ => List.Forall₂ base.Same)
      (a.children.filterM fun child => return !(← node child).isModule)
      (b.children.filterM fun child => return !(← node child).isModule) := by
    refine agree_filterM ?_ children
    intro later after x y same
    refine agree_node_bind (agree_pure ?_)
    rw [(same.alike_later tree (since.trans after)).isModule]
  apply agree_bind plain
  intro middle after xs ys kept
  have reached := since.trans after
  have found : Agree middle (fun _ => List.Forall₂ (List.Forall₂ base.Same))
      (xs.mapM fun child => do
        return (← (← needs child).mapM (outerModules a)).flatten)
      (ys.mapM fun child => do
        return (← (← needs child).mapM (outerModules b)).flatten) := by
    refine agree_mapM (fun _ _ _ _ _ related => related) ?_ kept
    intro later onward x y same
    have begun := reached.trans onward
    apply agree_bind (agree_needs tree begun (.inl same))
    intro last further needed others related
    have outer : Agree last (fun _ => List.Forall₂ (List.Forall₂ base.Same))
        (needed.mapM (outerModules a)) (others.mapM (outerModules b)) := by
      refine agree_mapM (fun _ _ _ _ _ related => related) ?_ related
      intro final more x y near
      apply agree_outerModules tree (begun.trans (further.trans more)) path
      exact lasting_near base more near
    apply agree_bind outer
    intro _ _ xss yss both
    exact agree_pure (List.rel_flatten both)
  apply agree_bind found
  intro _ _ xss yss both
  exact agree_pure (List.rel_flatten both)

theorem agree_localProviders (since : base.Later world) (near : base.Near world i j) (tier : Scope)
    (category : Option Category) :
    Agree world (base.Found i j) (localProviders i tier category)
      (localProviders j tier category) := by
  apply agree_bind (agree_declared tree since near tier category)
  intro later after xs ys found
  have reached := since.trans after
  have still := lasting_near base after near
  have alike := still.alike tree reached
  apply agree_node_bind
  rw [← alike.isModule, ← alike.isSome_header]
  split
  · next module =>
    apply agree_bind
      (agree_neededModules tree reached alike.path (still.children tree reached))
    intro last onward modules others related
    refine agree_pure ⟨?_, fun _ => ?_⟩
    · refine forall₂_foldl_addNew (biUnique_near (reached.trans onward))
        (related.imp fun _ _ => .inl) ?_
      exact lasting_forall₂ (lasting_near base) onward found.1
    · refine still.resolve_right fun leaf => ?_
      simp [leaf.isPlain.1] at module
  · exact agree_pure found

theorem agree_aggregated (since : base.Later world) (near : base.Near world i j) (scope : Scope)
    (withBuild : Bool) :
    Agree world (base.Found i j) (aggregated i scope withBuild) (aggregated j scope withBuild) := by
  refine agree_gather since ?_ _
  intro later after tier
  exact agree_localProviders tree (since.trans after) (lasting_near base after near) tier none

theorem agree_expanded (since : base.Later world) {xs ys : List ResourceId}
    (related : List.Forall₂ (base.Near world) xs ys) (scope : Scope) :
    Agree world (fun later => List.Forall₂ (base.Near later)) (expanded xs scope)
      (expanded ys scope) := by
  refine agree_closure (lasting_near base) ?_ ?_ related
  · intro later after
    exact biUnique_near (since.trans after)
  · intro later after x y near
    apply (agree_aggregated tree (since.trans after) near scope _).imp
    exact fun last _ xs ys found => found.known since

theorem agree_tierProviders (since : base.Later world) (near : base.Near world i j) (scope : Scope)
    (expand : Bool) (category : Option Category) :
    Agree world (fun later => List.Forall₂ (base.Near later))
      (tierProviders i scope expand category) (tierProviders j scope expand category) := by
  apply agree_bind (agree_localProviders tree since near scope category)
  intro later after xs ys found
  cases expand with
  | true => exact agree_expanded tree (since.trans after) found.1 scope
  | false => exact agree_pure found.1

theorem agree_aggregatedProviders (since : base.Later world) (near : base.Near world i j)
    (scope : Scope) (expand withBuild : Bool) :
    Agree world (fun later => List.Forall₂ (base.Near later))
      (aggregatedProviders i scope expand withBuild)
      (aggregatedProviders j scope expand withBuild) := by
  apply agree_bind (agree_aggregated tree since near scope withBuild)
  intro later after xs ys found
  cases expand with
  | true => exact agree_expanded tree (since.trans after) found.1 scope
  | false => exact agree_pure found.1

end

end Query
end ResourceLibrary
