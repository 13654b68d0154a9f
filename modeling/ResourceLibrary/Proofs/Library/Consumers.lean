import ResourceLibrary.Proofs.Library.Choice
import ResourceLibrary.Proofs.Library.ModuleOrder
import ResourceLibrary.Proofs.Walk.PreOrder

/-!
Consumers. Main statement: the consumers of a resource are, each once, the resources of the library
that have it among their providers; expanded ones are those that lead to it over providers.
-/

namespace ResourceLibrary
open Registry (Grows Reached)

namespace Query
variable {library : Library} {start grown : Registry} {id other : ResourceId}

theorem answer_localProviders_of_undeclared
    (undeclared : (library.node start id).header = none) (tier : Scope)
    (category : Option Category) :
    (localProviders id tier category).answer library start = (.ok [], start) := by
  rw [localProviders, answer_bind, answer_declared_of_undeclared undeclared]
  simp only
  rw [answer_bind, answer_node]
  simp only [undeclared, Option.isSome_none, Bool.and_false, Bool.false_and, Bool.false_eq_true,
    if_false]
  rfl

theorem allProviders_of_not_expand (id : ResourceId) (scope : Scope) (sorted : Bool) :
    allProviders id scope false sorted =
      aggregated id scope true >>= (arranged · scope sorted) := by
  simp [allProviders, aggregatedProviders]

theorem finds_allProviders_iff {scope : Scope} :
    Finds library start (allProviders id scope false false) other ↔
      Finds library start (aggregated id scope true) other := by
  unfold Finds
  rw [allProviders_of_not_expand]
  constructor
  · rintro ⟨ids, last, given, member⟩
    obtain ⟨found, middle, provided, done⟩ := answer_bind_eq_ok_iff.mp given
    cases done
    exact ⟨found, last, provided, List.mem_mergeSort.mp member⟩
  · rintro ⟨found, last, provided, member⟩
    have same : (arranged found scope false).answer library last = _ := rfl
    exact ⟨_, last, answer_bind_eq_ok_iff.mpr ⟨found, last, provided, same⟩,
      List.mem_mergeSort.mpr member⟩

def Resource (library : Library) (registry : Registry) (id : ResourceId) : Prop :=
  id < library.frozen.size ∨
    id < registry.next library ∧ (library.node registry id).isModule = false

theorem Resource.known (resource : Resource library start id) : id < start.next library :=
  resource.elim (Nat.lt_add_right _) And.left

theorem Resource.later (resource : Resource library start id)
    (grows : Grows library start grown) : Resource library grown id := by
  refine resource.imp_right fun ⟨known, plain⟩ => ⟨Nat.lt_of_lt_of_le known grows.next_le, ?_⟩
  rw [grows.node known]
  exact plain

section
variable (tree : library.arena.IsTree) (reached : Reached library start)
include tree reached

theorem not_finds_root {scope : Scope} {withBuild : Bool} :
    ¬Finds library start (aggregated Library.root scope withBuild) other := by
  rintro ⟨ids, last, given, member⟩
  have frozen := Library.size_pos_of_isTree tree
  have known : Library.root < start.next library := Nat.lt_add_right _ frozen
  obtain ⟨tier, _, others, _, asked, provided⟩ :=
    ((finds_aggregated_iff tree reached known given).2 other).mp member
  rw [answer_localProviders_of_undeclared (Library.undeclared_root tree last)] at asked
  cases asked
  cases provided

theorem resource_of_aggregated (frozen : id < library.frozen.size) {scope : Scope}
    {withBuild : Bool} {ids : List ResourceId}
    (given : (aggregated id scope withBuild).answer library start = (.ok ids, grown)) :
    ∀ provider ∈ ids, Resource library grown provider := by
  intro provider member
  have begun : Reached library .empty := .refl
  have steady := steady_aggregated tree begun scope withBuild
  have here := steady.lasts reached (itself_of_lt begun (Nat.lt_add_right _ frozen))
  obtain ⟨after, same | leaf⟩ := steady.stays reached here given provider member
  · rcases same with ⟨_, inside⟩ | ⟨_, _, inside, _⟩
    · exact .inl inside
    · exact absurd inside Registry.not_within_empty
  · exact .inr ⟨leaf.same.lt_next.1, leaf.isPlain.1⟩

theorem lt_frozen_of_resource (resource : Resource library start id) {scope : Scope}
    {withBuild : Bool} (finds : Finds library start (aggregated id scope withBuild) other) :
    id < library.frozen.size :=
  resource.elim (fun frozen => frozen) fun ⟨known, plain⟩ =>
    lt_frozen_of_finds tree reached known plain finds

end

/-- A table of what the resources of a library are provided with at any tier. -/
structure Listing (library : Library) (registry : Registry)
    (table : List (ResourceId × List ResourceId)) : Prop where
  single : (table.map (·.1)).Nodup
  inside : ∀ entry ∈ table, entry.1 < library.frozen.size
  covers : ∀ id, 0 < id → id < library.frozen.size → ∃ providers, (id, providers) ∈ table
  settled : ∀ entry ∈ table, Settled library registry (aggregated entry.1 .test true) entry.2
  resources : ∀ entry ∈ table, ∀ provider ∈ entry.2, Resource library registry provider

theorem Listing.later {table : List (ResourceId × List ResourceId)}
    (listing : Listing library start table) (grows : Grows library start grown) :
    Listing library grown table := by
  refine ⟨listing.single, listing.inside, listing.covers, fun entry member => ?_,
    fun entry member provider provided => ?_⟩
  · exact (listing.settled entry member).later grows
  · exact (listing.resources entry member provider provided).later grows

section
variable (tree : library.arena.IsTree) (reached : Reached library start)
include tree reached

theorem entry_of_answer (frozen : id < library.frozen.size) {ids : List ResourceId}
    (given : (aggregated id .test true).answer library start = (.ok ids, grown)) {last : Registry}
    (onward : Grows library grown last) :
    Settled library last (aggregated id .test true) ids ∧
      ∀ provider ∈ ids, Resource library last provider := by
  have steady := steady_aggregated tree reached .test true
  have settled := (settled_of_answer reached steady (Nat.lt_add_right _ frozen) given).1
  have resources := resource_of_aggregated tree reached frozen given
  exact ⟨settled.later onward, fun provider member => (resources provider member).later onward⟩

theorem mem_of_everything {candidates : List ResourceId}
    (given : (selectIds Library.root everything false).answer library start =
      (.ok candidates, grown)) :
    candidates.Nodup ∧ ∀ id, id ∈ candidates ↔ 0 < id ∧ id < library.frozen.size := by
  have root : Library.root < start.next library :=
    Nat.lt_add_right _ (Library.size_pos_of_isTree tree)
  obtain ⟨single, members⟩ := mem_of_selectIds tree reached whole_everything root given
  refine ⟨single, fun id => ?_⟩
  rw [members, tokens_everything, Library.selects_everything_iff tree reached]
  simp

theorem listing_of_provided {table : List (ResourceId × List ResourceId)}
    (given : provided.answer library start = (.ok table, grown)) :
    Listing library grown table := by
  obtain ⟨candidates, middle, chosen, asked⟩ := answer_bind_eq_ok_iff.mp given
  obtain ⟨single, members⟩ := mem_of_everything tree reached chosen
  have begun := reached.grows ((growing_selectIds _ _ _).grows chosen)
  have frozen : ∀ candidate ∈ candidates, candidate < library.frozen.size :=
    fun candidate member => ((members candidate).mp member).2
  have entries : List.Forall₂ (fun candidate entry => candidate = entry.1 ∧
      entry.1 < library.frozen.size ∧
      Settled library grown (aggregated entry.1 .test true) entry.2 ∧
      ∀ provider ∈ entry.2, Resource library grown provider) candidates table := by
    refine ((List.forall₂_and_left _ _).mpr
      ⟨frozen, forall₂_of_answer_mapM growing_entry asked⟩).imp ?_
    rintro candidate entry ⟨inside, before, after, since, answered, onward⟩
    obtain ⟨ids, last, provided, done⟩ := answer_bind_eq_ok_iff.mp answered
    cases done
    exact ⟨rfl, inside, entry_of_answer tree (begun.grows since) inside provided onward⟩
  have keys : candidates = table.map (·.1) := by
    rw [← List.forall₂_eq_eq_eq, List.forall₂_map_right_iff]
    exact entries.imp fun _ _ => And.left
  have each : ∀ entry ∈ table, entry.1 < library.frozen.size ∧
      Settled library grown (aggregated entry.1 .test true) entry.2 ∧
      ∀ provider ∈ entry.2, Resource library grown provider := by
    intro entry member
    obtain ⟨_, _, _, facts⟩ := exists_mem_of_forall₂ entries.flip member
    exact facts
  refine ⟨keys ▸ single, fun entry member => (each entry member).1, fun id positive inside => ?_,
    fun entry member => (each entry member).2.1, fun entry member => (each entry member).2.2⟩
  obtain ⟨entry, member, rfl, _⟩ :=
    exists_mem_of_forall₂ entries ((members id).mpr ⟨positive, inside⟩)
  exact ⟨entry.2, member⟩

end

namespace Listing
variable {table : List (ResourceId × List ResourceId)} (listing : Listing library start table)
include listing

theorem nodup_directConsumers (id : ResourceId) : (directConsumers table id).Nodup :=
  listing.single.sublist (List.filter_sublist.map _)

/-- Direct consumers are the resources of the library that have the given one among their
providers. -/
theorem mem_directConsumers_iff (tree : library.arena.IsTree) (reached : Reached library start) :
    other ∈ directConsumers table id ↔ other < library.frozen.size ∧
      Finds library start (aggregated other .test true) id := by
  rw [mem_directConsumers]
  constructor
  · rintro ⟨providers, member, provided⟩
    exact ⟨listing.inside _ member, (listing.settled _ member).finds_iff.mpr provided⟩
  · rintro ⟨inside, finds⟩
    have positive : 0 < other := by
      refine Nat.pos_of_ne_zero ?_
      rintro rfl
      exact not_finds_root tree reached finds
    obtain ⟨providers, member⟩ := listing.covers other positive inside
    exact ⟨providers, member, (listing.settled _ member).finds_iff.mp finds⟩

theorem bounded_directConsumers :
    Walk.Bounded (directConsumers table) (fun _ => True) (List.range (start.next library)) := by
  refine ⟨fun _ _ _ _ => trivial, fun id _ consumer edge => ?_⟩
  obtain ⟨providers, member, provided⟩ := mem_directConsumers.mp edge
  exact List.mem_range.mpr (listing.resources _ member _ provided).known

theorem mem_entered_iff (grows : Grows library start grown) (tree : library.arena.IsTree)
    (reached : Reached library grown) :
    other ∈ Walk.entered (directConsumers table) (start.next library + 1)
        (directConsumers table id) ↔
      other < library.frozen.size ∧ Relation.TransGen (fun consumer provider =>
        Finds library grown (aggregated consumer .test true) provider) other id := by
  have room : (List.range (start.next library)).length < start.next library + 1 := by simp
  have now := listing.later grows
  rw [Walk.mem_entered_iff listing.bounded_directConsumers room fun _ _ => trivial]
  constructor
  · rintro ⟨first, begins, way⟩
    obtain ⟨inside, finds⟩ := (now.mem_directConsumers_iff tree reached).mp begins
    induction way with
    | refl => exact ⟨inside, .single finds⟩
    | tail _ edge ih =>
      obtain ⟨further, step⟩ := (now.mem_directConsumers_iff tree reached).mp edge
      exact ⟨further, .head step ih.2⟩
  · rintro ⟨inside, way⟩
    induction way using Relation.TransGen.head_induction_on with
    | single finds =>
      exact ⟨_, (now.mem_directConsumers_iff tree reached).mpr ⟨inside, finds⟩, .refl⟩
    | head finds rest ih =>
      have edge := (now.mem_directConsumers_iff tree reached).mpr ⟨inside, finds⟩
      obtain ⟨providers, member, provided⟩ := mem_directConsumers.mp edge
      have resource := now.resources _ member _ provided
      -- A resource that stands for a coordinate ends every way.
      obtain ⟨_, next, _⟩ := Relation.TransGen.head'_iff.mp rest
      obtain ⟨first, begins, back⟩ := ih (lt_frozen_of_resource tree reached resource next)
      exact ⟨first, begins, back.tail edge⟩

end Listing

def tabled (table : List (ResourceId × List ResourceId)) (depth : Nat) (expand : Bool)
    (id : ResourceId) : List ResourceId :=
  if expand then Walk.entered (directConsumers table) depth (directConsumers table id)
  else directConsumers table id

theorem consumers_cases {expand sorted : Bool} {ids : List ResourceId}
    (given : (consumers id expand sorted).answer library start = (.ok ids, grown)) :
    ∃ table middle, provided.answer library start = (.ok table, middle) ∧
      (arranged (tabled table (middle.next library + 1) expand id) .test sorted).answer library
        middle = (.ok ids, grown) := by
  obtain ⟨table, middle, listed, further⟩ := answer_bind_eq_ok_iff.mp given
  refine ⟨table, middle, listed, ?_⟩
  cases expand with
  | false => exact further
  | true =>
    simp only [Walk.preOrder_pure] at further
    exact further

namespace Listing
variable {table : List (ResourceId × List ResourceId)} (listing : Listing library start table)
include listing

theorem nodup_tabled (expand : Bool) (id : ResourceId) :
    (tabled table (start.next library + 1) expand id).Nodup := by
  cases expand with
  | false => exact listing.nodup_directConsumers id
  | true => exact Walk.nodup_entered listing.bounded_directConsumers (by simp) fun _ _ => trivial

theorem mem_tabled_iff (grows : Grows library start grown) (tree : library.arena.IsTree)
    (reached : Reached library grown) (expand : Bool) :
    other ∈ tabled table (start.next library + 1) expand id ↔ other < library.frozen.size ∧
      if expand then Relation.TransGen (fun consumer provider =>
        Finds library grown (aggregated consumer .test true) provider) other id
      else Finds library grown (aggregated other .test true) id := by
  cases expand with
  | false => exact (listing.later grows).mem_directConsumers_iff tree reached
  | true => exact listing.mem_entered_iff grows tree reached

end Listing

theorem answer_aggregated_root (tree : library.arena.IsTree) (scope : Scope) (withBuild : Bool) :
    ∃ ids, (aggregated Library.root scope withBuild).answer library start = (.ok ids, start) := by
  have undeclared := Library.undeclared_root tree start
  have each : ∀ tier, ∃ ids, (localProviders Library.root tier none).answer library start =
      (.ok ids, start) :=
    fun tier => ⟨[], answer_localProviders_of_undeclared undeclared tier none⟩
  obtain ⟨lists, gathered⟩ := answer_mapM_ok each (scope.tiers withBuild)
  exact ⟨_, answer_bind_eq_ok_iff.mpr ⟨lists, start, gathered, rfl⟩⟩

theorem Listing.answer_aggregated {table : List (ResourceId × List ResourceId)}
    (listing : Listing library start table) (tree : library.arena.IsTree)
    (inside : id < library.frozen.size) :
    ∃ ids last, (aggregated id .test true).answer library start = (.ok ids, last) := by
  rcases Nat.eq_zero_or_pos id with rfl | positive
  · obtain ⟨ids, given⟩ := answer_aggregated_root tree .test true
    exact ⟨ids, start, given⟩
  · obtain ⟨ids, member⟩ := listing.covers id positive inside
    obtain ⟨last, given⟩ := listing.settled _ member start .refl
    exact ⟨ids, last, given⟩

theorem mem_of_consumers (tree : library.arena.IsTree) (reached : Reached library start)
    {expand sorted : Bool} {ids : List ResourceId}
    (given : (consumers id expand sorted).answer library start = (.ok ids, grown)) :
    ids.Nodup ∧ (∃ table, Listing library grown table) ∧ ∀ later, Grows library grown later →
      ∀ consumer, consumer ∈ ids ↔ consumer < library.frozen.size ∧
        if expand then Relation.TransGen (fun consumer provider =>
          Finds library later (aggregated consumer .test true) provider) consumer id
        else Finds library later (aggregated consumer .test true) id := by
  obtain ⟨table, middle, listed, ordered⟩ := consumers_cases given
  have begun := reached.grows (growing_provided.grows listed)
  have listing := listing_of_provided tree reached listed
  have onward := (growing_arranged _ _ _).grows ordered
  have bound : ∀ consumer ∈ tabled table (middle.next library + 1) expand id,
      consumer < middle.next library := fun consumer member =>
    Nat.lt_add_right _ ((listing.mem_tabled_iff .refl tree begun expand).mp member).1
  have single := listing.nodup_tabled expand id
  have same := perm_of_arranged tree begun bound single ordered
  refine ⟨same.nodup_iff.mpr single, ⟨table, listing.later onward⟩, fun later grows consumer => ?_⟩
  have since := onward.trans grows
  rw [same.mem_iff, listing.mem_tabled_iff since tree (begun.grows since) expand]

end Query

namespace Library

def Provides (library : Library) (registry : Registry) (consumer provider : ResourceId) : Prop :=
  Query.Finds library registry (Query.allProviders consumer .test false false) provider

/-- Consumers are the inverse of providers. -/
theorem mem_consumers_iff {settings : Settings} {host : Host} {load : ImportLoader}
    {catalog : Catalog} {library : Library}
    (built : build settings host load catalog = .ok library) (earlier : List Request)
    (id : ResourceId) (expand sorted : Bool) (found : List ResourceId) (grown : Registry)
    (given : (Query.consumers id expand sorted).answer library (library.after earlier) =
      (.ok found, grown)) :
    found.Nodup ∧ ∀ later, Registry.Grows library grown later →
      (∀ consumer < library.frozen.size, ∃ providers last,
        (Query.allProviders consumer .test false false).answer library later =
          (.ok providers, last)) ∧
      ∀ consumer, consumer ∈ found ↔ consumer < library.frozen.size ∧
        if expand then Relation.TransGen (library.Provides later) consumer id
        else library.Provides later consumer id := by
  have tree := isTree_of_build built
  have reached := library.reached_after earlier
  obtain ⟨single, ⟨table, listing⟩, members⟩ := Query.mem_of_consumers tree reached given
  have steps : ∀ later, library.Provides later = fun consumer provider =>
      Query.Finds library later (Query.aggregated consumer .test true) provider :=
    fun later => funext fun _ => funext fun _ => propext Query.finds_allProviders_iff
  refine ⟨single, fun later grows => ⟨fun consumer inside => ?_, fun consumer => ?_⟩⟩
  · obtain ⟨ids, last, given⟩ := (listing.later grows).answer_aggregated tree inside
    rw [Query.allProviders_of_not_expand]
    exact ⟨_, last, Query.answer_bind_eq_ok_iff.mpr ⟨ids, last, given, rfl⟩⟩
  · rw [members later grows, steps]

theorem mem_consumers_iff_circle :
    ∃ library grown, build (.ofRoot ⟨"/"⟩) "now" .none circle = .ok library ∧
      (Query.consumers 2 true true).answer library (library.after []) = (.ok [2, 3, 1], grown) ∧
      [2, 3, 1].Nodup ∧ Relation.TransGen (library.Provides grown) 2 2 ∧
      Relation.TransGen (library.Provides grown) 1 2 ∧
      ¬Relation.TransGen (library.Provides grown) 0 2 := by
  obtain ⟨library, built, size, given⟩ : ∃ library,
      build (.ofRoot ⟨"/"⟩) "now" .none circle = .ok library ∧ library.frozen.size = 4 ∧
      (Query.consumers 2 true true).answer library .empty = (.ok [2, 3, 1], .empty) :=
    ⟨_, rfl, rfl, rfl⟩
  obtain ⟨single, always⟩ := mem_consumers_iff built [] 2 true true _ _ given
  obtain ⟨_, members⟩ := always .empty .refl
  simp only [size, if_true] at members
  refine ⟨library, .empty, built, given, single, ((members 2).mp (by decide)).2,
    ((members 1).mp (by decide)).2, fun way => ?_⟩
  exact absurd ((members 0).mpr ⟨by decide, way⟩) (by decide)

end Library
end ResourceLibrary
