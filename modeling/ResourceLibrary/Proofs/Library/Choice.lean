import ResourceLibrary.Proofs.Library.Criteria
import ResourceLibrary.Proofs.Library.Forest
import ResourceLibrary.Proofs.Library.Session
import ResourceLibrary.Proofs.Library.Sorting

/-!
Selections that were answered. Main statement: a selection holds, each once, what the criteria select,
and two stars in front of one select every resource of a library.
-/

namespace ResourceLibrary
open Registry (Grows Reached)

theorem fits_iff (token name : String) :
    Fits token name ↔ token = "*" ∨ Glob.accepts token.toList name.toList = true := by
  rw [Glob.accepts_iff_spells, Fits]

theorem mem_flatten_of_forall₂ {α β : Type} {holds : α → β → Prop} {items : List α}
    {lists : List (List β)}
    (each : List.Forall₂ (fun item list => ∀ value, value ∈ list ↔ holds item value) items lists)
    {value : β} : value ∈ lists.flatten ↔ ∃ item ∈ items, holds item value := by
  induction each with
  | nil => simp
  | cons first _ ih => simp [first, ih]

namespace Query

theorem tokens_everything : Glob.tokens everything = ["**", "*"] := by decide +kernel

theorem whole_everything :
    ∀ token ∈ Glob.tokens everything, Glob.isDeep token = true → token = "**" := by
  decide +kernel

section
variable {library : Library} {registry : Registry}

theorem answer_mapM_ok {α β : Type} {step : α → Query β}
    (each : ∀ item, ∃ value, (step item).answer library registry = (.ok value, registry))
    (items : List α) :
    ∃ values, (items.mapM step).answer library registry = (.ok values, registry) := by
  induction items with
  | nil => exact ⟨[], rfl⟩
  | cons item rest ih =>
    obtain ⟨value, first⟩ := each item
    obtain ⟨values, others⟩ := ih
    refine ⟨value :: values, ?_⟩
    rw [List.mapM_cons]
    refine answer_bind_eq_ok_iff.mpr ⟨value, registry, first, ?_⟩
    exact answer_bind_eq_ok_iff.mpr ⟨values, registry, others, rfl⟩

/-- Without two stars nothing has to be sorted, so nothing can fail. -/
theorem answer_selectTokens_of_plain {tokens : List String}
    (plain : ∀ token ∈ tokens, Glob.isDeep token = false) (deep : Bool) (id : ResourceId) :
    ∃ ids, (selectTokens deep id tokens).answer library registry = (.ok ids, registry) := by
  have apart : ∀ token ∈ tokens, token ≠ "**" := by
    rintro token member rfl
    exact absurd (plain _ member) (by decide)
  induction tokens generalizing deep id with
  | nil => exact ⟨[], rfl⟩
  | cons token rest ih =>
    obtain ⟨shallow, others⟩ := List.forall_mem_cons.mp plain
    obtain ⟨named, alsoNamed⟩ := List.forall_mem_cons.mp apart
    cases rest with
    | nil =>
      rw [selectTokens, selectLast, answer_bind, answer_nodes]
      simp only [if_neg named]
      split <;> exact ⟨_, rfl⟩
    | cons next further =>
      have chosen : ∃ modules,
          (selectModules id token).answer library registry = (.ok modules, registry) := by
        rw [selectModules, answer_bind, answer_nodes]
        simp only [if_neg named]
        split <;> exact ⟨_, rfl⟩
      obtain ⟨modules, chosen⟩ := chosen
      obtain ⟨lists, below⟩ := answer_mapM_ok (fun module => ih others _ module alsoNamed) modules
      refine ⟨distinct (lists.flatten ++ []), answer_bind_eq_ok_iff.mpr ⟨modules, _, chosen, ?_⟩⟩
      refine answer_bind_eq_ok_iff.mpr ⟨lists, registry, below, ?_⟩
      simp only [shallow, Bool.false_eq_true, if_false]
      rfl

theorem answer_select_of_plain {criteria : String}
    (plain : ∀ token ∈ Glob.tokens criteria, Glob.isDeep token = false) (id : ResourceId)
    (onlyLocal : Bool) :
    ∃ ids, (select id criteria onlyLocal false).answer library registry = (.ok ids, registry) := by
  obtain ⟨all, asked⟩ := answer_selectTokens_of_plain plain false id
  have chosen : ∃ found,
      (selectIds id criteria onlyLocal).answer library registry = (.ok found, registry) :=
    ⟨_, answer_bind_eq_ok_iff.mpr ⟨all, registry, asked, rfl⟩⟩
  obtain ⟨found, chosen⟩ := chosen
  exact ⟨_, answer_bind_eq_ok_iff.mpr ⟨found, registry, chosen, rfl⟩⟩

end

/-- What tokens in front of others choose: from each module that the first one chooses, and from
the start itself if that one is deep. -/
theorem selectTokens_cases {library : Library} {now grown : Registry} {deep : Bool}
    {id : ResourceId} {token next : String} {rest : List String} {ids : List ResourceId}
    (given : (selectTokens deep id (token :: next :: rest)).answer library now =
      (.ok ids, grown)) :
    ∃ modules middle lists later here,
      (selectModules id token).answer library now = (.ok modules, middle) ∧
      (modules.mapM fun module =>
        selectTokens (Glob.isDeep token) module (next :: rest)).answer library middle =
          (.ok lists, later) ∧
      (if Glob.isDeep token then
        (selectTokens true id (next :: rest)).answer library later = (.ok here, grown)
      else here = []) ∧ ids = distinct (lists.flatten ++ here) := by
  obtain ⟨modules, middle, chosen, more⟩ := answer_bind_eq_ok_iff.mp given
  obtain ⟨lists, later, asked, last⟩ := answer_bind_eq_ok_iff.mp more
  simp only at last
  split at last
  · next stars =>
    obtain ⟨here, _, own, done⟩ := answer_bind_eq_ok_iff.mp last
    cases done
    exact ⟨modules, middle, lists, later, here, chosen, asked, by rwa [if_pos stars], rfl⟩
  · next plain =>
    cases last
    exact ⟨modules, middle, lists, _, [], chosen, asked, by rw [if_neg plain], rfl⟩

variable {library : Library} (tree : library.arena.IsTree) {start now grown : Registry}
  (reached : Reached library start) (since : Grows library start now) {id : ResourceId}
include tree reached

theorem isRoot_of_modulesBelow {inner : ResourceId}
    (below : Relation.TransGen (ModuleBelow (library.node start)) id inner) :
    (library.node start inner).isRoot = false := by
  obtain ⟨_, _, last⟩ := Relation.TransGen.tail'_iff.mp below
  exact (joined_of_parent tree reached last.1).2.inner

theorem not_mem_children_self (known : id < start.next library) :
    id ∉ (library.node start id).children := by
  intro member
  have up := (mem_children_iff tree reached known).mp member
  exact absurd (joined_of_parent tree reached up).2.later (Nat.lt_irrefl _)

theorem nodup_children_append_self (known : id < start.next library) (withSelf : Bool) :
    ((library.node start id).children ++ if withSelf then [id] else []).Nodup := by
  have single := nodup_children tree reached known
  cases withSelf with
  | false => simpa using single
  | true =>
    refine List.nodup_append.mpr ⟨single, by simp, ?_⟩
    rintro child member _ last rfl
    rw [if_pos rfl, List.mem_singleton] at last
    exact not_mem_children_self tree reached known (last ▸ member)

theorem selects_star_iff (known : id < start.next library) (deep : Bool) (inner : ResourceId) :
    Selects (library.node start) deep ["*"] id inner ↔
      inner ∈ (library.node start id).children ++
        if deep && !(library.node start id).isRoot then [id] else [] := by
  rw [selects_child (by decide), List.mem_append, mem_children_iff tree reached known]
  constructor
  · rintro ⟨inside, ⟨up, _⟩ | ⟨rfl, _, rfl⟩⟩
    · exact .inl up
    · exact .inr (by simp [inside])
  · rintro (up | here)
    · exact ⟨(joined_of_parent tree reached up).2.inner, .inl ⟨up, .inl rfl⟩⟩
    · simp only [List.mem_ite_nil_right, Bool.and_eq_true, Bool.not_eq_true',
        List.mem_singleton] at here
      obtain ⟨⟨after, inside⟩, rfl⟩ := here
      exact ⟨inside, .inr ⟨after, rfl, rfl⟩⟩

theorem selects_name_iff {token : String} (plain : token ≠ "**") (named : token ≠ "*")
    (deep : Bool) (inner : ResourceId) :
    Selects (library.node start) deep [token] id inner ↔
      (library.node start inner).parent = some id ∧
        Glob.accepts token.toList (library.node start inner).name.toList = true := by
  rw [selects_child plain, fits_iff, or_iff_right named]
  constructor
  · rintro ⟨_, place | ⟨_, star, _⟩⟩
    · exact place
    · exact absurd star named
  · exact fun place => ⟨(joined_of_parent tree reached place.1).2.inner, .inl place⟩

theorem selects_cons_iff {token next : String} {rest : List String}
    (whole : Glob.isDeep token = true → token = "**") (deep : Bool) (inner : ResourceId) :
    Selects (library.node start) deep (token :: next :: rest) id inner ↔
      (∃ module, Chooses (library.node start) token id module ∧
        Selects (library.node start) (Glob.isDeep token) (next :: rest) module inner) ∨
      (Glob.isDeep token = true ∧ Selects (library.node start) true (next :: rest) id inner) := by
  by_cases anywhere : token = "**"
  · subst anywhere
    have stars : Glob.isDeep "**" = true := by decide
    simp only [selects_over, stars, Chooses, if_true, true_and]
    constructor
    · rintro ⟨module, reach, selects⟩
      rcases Relation.reflTransGen_iff_eq_or_transGen.mp reach with rfl | way
      · exact .inr selects
      · exact .inl ⟨module, ⟨isRoot_of_modulesBelow tree reached way, reach⟩, selects⟩
    · rintro (⟨module, ⟨_, reach⟩, selects⟩ | selects)
      · exact ⟨module, reach, selects⟩
      · exact ⟨id, .refl, selects⟩
  · have plain : Glob.isDeep token = false :=
      Bool.eq_false_iff.mpr fun holds => anywhere (whole holds)
    rw [selects_into anywhere, plain]
    simp

omit tree reached in
theorem known_of_modulesBelow (known : id < start.next library) {inner : ResourceId}
    (reach : Relation.ReflTransGen (ModuleBelow (library.node start)) id inner) :
    inner < start.next library := by
  cases reach with
  | refl => exact known
  | tail _ below => exact Library.known_of_parent below.1

include since

theorem mem_childModules_iff (known : id < start.next library) (child : ResourceId) :
    child ∈ childModules (library.node now) (library.node now id) ↔
      ModuleBelow (library.node start) id child := by
  rw [childModules, List.mem_filter, since.node known, mem_children_iff tree reached known]
  refine and_congr_right fun up => ?_
  rw [since.node (Library.known_of_parent up)]

theorem reaches_childModules_iff (known : id < start.next library) {inner : ResourceId} :
    Walk.Reaches (fun node => childModules (library.node now) (library.node now node)) id inner ↔
      Relation.ReflTransGen (ModuleBelow (library.node start)) id inner := by
  constructor
  · intro reach
    induction reach with
    | refl => exact .refl
    | tail _ edge ih =>
      have inside := known_of_modulesBelow known ih
      exact ih.tail ((mem_childModules_iff tree reached since inside _).mp edge)
  · intro reach
    induction reach with
    | refl => exact .refl
    | tail before below ih =>
      have inside := known_of_modulesBelow known before
      exact ih.tail ((mem_childModules_iff tree reached since inside _).mpr below)

theorem mem_modulesBelow_iff (known : id < start.next library) (inner : ResourceId) :
    inner ∈ modulesBelow (library.node now) (now.next library + 1) id ↔
      Relation.TransGen (ModuleBelow (library.node start)) id inner := by
  -- The registry has grown since the start, but the walk stays among the numbers known then.
  have bounded : Walk.Bounded
      (fun node => childModules (library.node now) (library.node now node))
      (· < start.next library) (List.range (start.next library)) := by
    refine ⟨fun node inside next edge => ?_, fun node inside _ _ => List.mem_range.mpr inside⟩
    exact Library.known_of_parent ((mem_childModules_iff tree reached since inside _).mp edge).1
  have room : (List.range (start.next library)).length < now.next library + 1 := by
    rw [List.length_range]
    exact Nat.lt_succ_of_le since.next_le
  have inside : ∀ child ∈ childModules (library.node now) (library.node now id),
      child < start.next library := bounded.stays id known
  refine (Walk.mem_order_traced bounded room inside inner).trans ?_
  rw [Relation.TransGen.head'_iff]
  refine exists_congr fun child => ?_
  rw [mem_childModules_iff tree reached since known]
  refine and_congr_right fun below => ?_
  exact reaches_childModules_iff tree reached since (Library.known_of_parent below.1)

theorem mem_modulesAtOrBelow_iff (known : id < start.next library) (inner : ResourceId) :
    inner ∈ (if !(library.node start id).isRoot
        then addNew (modulesBelow (library.node now) (now.next library + 1) id) id
        else modulesBelow (library.node now) (now.next library + 1) id) ↔
      (library.node start inner).isRoot = false ∧
        Relation.ReflTransGen (ModuleBelow (library.node start)) id inner := by
  have strictly := mem_modulesBelow_iff tree reached since known inner
  rw [Relation.reflTransGen_iff_eq_or_transGen]
  cases root : (library.node start id).isRoot with
  | true =>
    rw [Bool.not_true, if_neg Bool.false_ne_true, strictly]
    constructor
    · exact fun way => ⟨isRoot_of_modulesBelow tree reached way, .inr way⟩
    · rintro ⟨inside, rfl | way⟩
      · rw [root] at inside
        cases inside
      · exact way
  | false =>
    rw [Bool.not_false, if_pos rfl, mem_addNew, strictly]
    constructor
    · rintro (way | rfl)
      · exact ⟨isRoot_of_modulesBelow tree reached way, .inr way⟩
      · exact ⟨root, .inl rfl⟩
    · exact fun inside => inside.2.symm

theorem mem_of_allModules (known : id < start.next library) {ids : List ResourceId}
    (given : (allModules id !(library.node start id).isRoot).answer library now =
      (.ok ids, grown)) :
    ids.Nodup ∧ ∀ inner, inner ∈ ids ↔ (library.node start inner).isRoot = false ∧
      Relation.ReflTransGen (ModuleBelow (library.node start)) id inner := by
  have members := mem_modulesAtOrBelow_iff tree reached since known
  simp only [allModules, answer_bind, answer_nodes, answer_depth] at given
  obtain ⟨single, same⟩ := mem_of_sort tree (reached.trans since) (fun inner member =>
    Nat.lt_of_lt_of_le (known_of_modulesBelow known ((members inner).mp member).2) since.next_le) given
  exact ⟨single, fun inner => (same inner).trans (members inner)⟩

theorem mem_of_selectModules (known : id < start.next library) {token : String}
    {ids : List ResourceId}
    (given : (selectModules id token).answer library now = (.ok ids, grown)) (child : ResourceId) :
    child ∈ ids ↔ Chooses (library.node start) token id child := by
  rw [selectModules, answer_bind, answer_nodes] at given
  simp only [since.node known] at given
  have children := mem_childModules_iff tree reached since known child
  rw [since.node known] at children
  unfold Chooses
  split
  · next anywhere =>
    rw [if_pos anywhere] at given
    exact (mem_of_allModules tree reached since known given).2 child
  · next plain =>
    rw [if_neg plain] at given
    rw [fits_iff]
    split at given
    · next star =>
      cases given
      simp [children, star]
    · next named =>
      cases given
      rw [List.mem_filter, children, or_iff_right named]
      refine and_congr_right fun below => ?_
      rw [since.node (Library.known_of_parent below.1)]

theorem mem_of_selectLast (known : id < start.next library) {deep : Bool} {token : String}
    {ids : List ResourceId}
    (given : (selectLast deep id token).answer library now = (.ok ids, grown)) :
    ids.Nodup ∧ ∀ inner, inner ∈ ids ↔ Selects (library.node start) deep [token] id inner := by
  rw [selectLast, answer_bind, answer_nodes] at given
  simp only [since.node known] at given
  split at given
  · next anywhere =>
    subst anywhere
    simp only [selects_anywhere]
    exact mem_of_allModules tree reached since known given
  · next plain =>
    split at given
    · next star =>
      subst star
      cases given
      exact ⟨nodup_children_append_self tree reached known _, fun inner =>
        (selects_star_iff tree reached known deep inner).symm⟩
    · next named =>
      cases given
      refine ⟨(nodup_children tree reached known).filter _, fun inner => ?_⟩
      rw [selects_name_iff tree reached plain named, List.mem_filter,
        mem_children_iff tree reached known]
      refine and_congr_right fun up => ?_
      rw [since.node (Library.known_of_parent up)]

omit tree reached since in
theorem known_of_chooses (known : id < start.next library) {token : String} {inner : ResourceId}
    (chosen : Chooses (library.node start) token id inner) : inner < start.next library := by
  unfold Chooses at chosen
  split at chosen
  · exact known_of_modulesBelow known chosen.2
  · exact Library.known_of_parent chosen.1.1

omit since in
/-- What the tokens choose, at any time after the start. -/
theorem mem_of_selectTokens {tokens : List String}
    (whole : ∀ token ∈ tokens, Glob.isDeep token = true → token = "**") {deep : Bool}
    (since : Grows library start now) (known : id < start.next library) {ids : List ResourceId}
    (given : (selectTokens deep id tokens).answer library now = (.ok ids, grown)) :
    ids.Nodup ∧ ∀ inner, inner ∈ ids ↔ Selects (library.node start) deep tokens id inner := by
  induction tokens generalizing deep id now grown ids with
  | nil =>
    cases given
    exact ⟨.nil, fun inner => iff_of_false List.not_mem_nil not_selects_nil⟩
  | cons token rest ih =>
    obtain ⟨first, others⟩ := List.forall_mem_cons.mp whole
    cases rest with
    | nil => exact mem_of_selectLast tree reached since known given
    | cons next further =>
      obtain ⟨modules, middle, lists, later, here, chosen, asked, own, rfl⟩ :=
        selectTokens_cases given
      have after := since.trans ((growing_selectModules id token).grows chosen)
      have onward := (growing_mapM (fun _ => growing_selectTokens _ _ _) modules).grows asked
      have chose := mem_of_selectModules tree reached since known chosen
      -- Each module is asked in a registry of its own, so the hypothesis is about any later one.
      have each : List.Forall₂ (fun module list => ∀ inner, inner ∈ list ↔
          Selects (library.node start) (Glob.isDeep token) (next :: further) module inner)
          modules lists := by
        have answers := forall₂_of_answer_mapM (fun _ => growing_selectTokens _ _ _) asked
        refine ((List.forall₂_and_left _ _).mpr ⟨fun _ => (chose _).mp, answers⟩).imp ?_
        rintro module list ⟨chosen, before, last, grows, given, _⟩
        exact (ih others (after.trans grows) (known_of_chooses known chosen) given).2
      refine ⟨nodup_distinct _, fun inner => ?_⟩
      rw [mem_distinct, List.mem_append, mem_flatten_of_forall₂ each,
        selects_cons_iff tree reached first]
      simp only [chose]
      refine or_congr_right ?_
      split at own
      · next stars => rw [(ih others (after.trans onward) known own).2, stars, eq_self, true_and]
      · next plain => simp [own, plain]

omit since tree reached in
theorem known_of_selects (known : id < start.next library) {deep : Bool} {tokens : List String}
    {inner : ResourceId} (selects : Selects (library.node start) deep tokens id inner) :
    inner < start.next library := by
  obtain ⟨_, way, leads, _⟩ := selects
  exact known_of_atOrBelow known (atOrBelow_iff_leads.mpr ⟨way, leads⟩)

/-- With others behind it, a token leads on from the modules that it chooses, and a deep one from
where it stands. -/
theorem cases_of_mem_selectTokens {token next : String} {rest : List String} {deep : Bool}
    {ids : List ResourceId} (known : id < start.next library)
    (given : (selectTokens deep id (token :: next :: rest)).answer library now = (.ok ids, grown))
    {inner : ResourceId} (member : inner ∈ ids) :
    (∃ module list before last, Chooses (library.node start) token id module ∧
      Grows library start before ∧
      (selectTokens (Glob.isDeep token) module (next :: rest)).answer library before =
        (.ok list, last) ∧ inner ∈ list) ∨
    Glob.isDeep token = true ∧ ∃ list before, Grows library start before ∧
      (selectTokens true id (next :: rest)).answer library before = (.ok list, grown) ∧
      inner ∈ list := by
  obtain ⟨modules, middle, lists, later, here, chosen, asked, own, rfl⟩ := selectTokens_cases given
  have after := since.trans ((growing_selectModules id token).grows chosen)
  have onward := (growing_mapM (fun _ => growing_selectTokens _ _ _) modules).grows asked
  rcases List.mem_append.mp (mem_distinct.mp member) with below | atStart
  · have each := (List.forall₂_and_left _ _).mpr
      ⟨fun module => (mem_of_selectModules tree reached since known chosen module).mp,
        forall₂_of_answer_mapM (fun _ => growing_selectTokens _ _ _) asked⟩
    obtain ⟨list, listed, inList⟩ := List.mem_flatten.mp below
    obtain ⟨module, _, chose, before, last, grows, given, _⟩ :=
      exists_mem_of_forall₂ each.flip listed
    exact .inl ⟨module, list, before, last, chose, after.trans grows, given, inList⟩
  · split at own
    · next stars => exact .inr ⟨stars, here, later, after.trans onward, own, atStart⟩
    · rw [own] at atStart
      cases atStart

omit since in
theorem atOrBelow_of_selectTokens {tokens : List String} {deep : Bool}
    {ids : List ResourceId} (since : Grows library start now) (known : id < start.next library)
    (given : (selectTokens deep id tokens).answer library now = (.ok ids, grown)) :
    ids.Nodup ∧ ∀ inner ∈ ids, AtOrBelow (library.node start) id inner := by
  induction tokens generalizing deep id now grown ids with
  | nil =>
    cases given
    exact ⟨.nil, nofun⟩
  | cons token rest ih =>
    cases rest with
    | nil =>
      obtain ⟨single, members⟩ := mem_of_selectLast tree reached since known given
      refine ⟨single, fun inner member => ?_⟩
      obtain ⟨_, way, leads, _⟩ := (members inner).mp member
      exact atOrBelow_iff_leads.mpr ⟨way, leads⟩
    | cons next further =>
      refine ⟨?_, fun inner member => ?_⟩
      · obtain ⟨_, _, _, _, _, _, _, _, rfl⟩ := selectTokens_cases given
        exact nodup_distinct _
      · rcases cases_of_mem_selectTokens tree reached since known given member with
          ⟨module, list, _, _, chose, grows, asked, inList⟩ | ⟨_, list, _, grows, asked, inList⟩
        · have inside := (ih grows (known_of_chooses known chose) asked).2 inner inList
          exact inside.trans (atOrBelow_of_chooses chose)
        · exact (ih grows known asked).2 inner inList

omit since in
theorem subset_of_select {criteria : String} {onlyLocal sorted : Bool}
    {ids : List ResourceId} (known : id < start.next library)
    (given : (select id criteria onlyLocal sorted).answer library start = (.ok ids, grown)) :
    ∃ all middle, (selectTokens false id (Glob.tokens criteria)).answer library start =
      (.ok all, middle) ∧ ids ⊆ all := by
  obtain ⟨found, middle, chosen, ordered⟩ := answer_bind_eq_ok_iff.mp given
  obtain ⟨all, last, asked, done⟩ := answer_bind_eq_ok_iff.mp chosen
  obtain ⟨single, below⟩ := atOrBelow_of_selectTokens tree reached .refl known asked
  have since := (growing_selectTokens _ _ _).grows asked
  have kept : found.Sublist all ∧ last = middle := by
    cases done
    refine ⟨?_, rfl⟩
    split
    · exact List.filter_sublist
    · exact .refl _
  obtain ⟨sublist, rfl⟩ := kept
  have bound : ∀ inner ∈ found, inner < last.next library := by
    intro inner member
    have inside := known_of_atOrBelow known (below inner (sublist.subset member))
    exact Nat.lt_of_lt_of_le inside since.next_le
  have same := perm_of_arranged tree (reached.trans since) bound (sublist.nodup single) ordered
  exact ⟨all, last, asked, fun inner member => sublist.subset (same.mem_iff.mp member)⟩

section
variable {criteria : String}
  (whole : ∀ token ∈ Glob.tokens criteria, Glob.isDeep token = true → token = "**")
  (known : id < start.next library) {onlyLocal : Bool} {ids : List ResourceId}
include whole known

omit since in
theorem mem_of_selectIds
    (given : (selectIds id criteria onlyLocal).answer library start = (.ok ids, grown)) :
    ids.Nodup ∧ ∀ inner, inner ∈ ids ↔
      Selects (library.node start) false (Glob.tokens criteria) id inner ∧
        (onlyLocal = true → (library.node start inner).basedir.isSome = true) := by
  obtain ⟨found, _, asked, done⟩ := answer_bind_eq_ok_iff.mp given
  obtain ⟨single, members⟩ := mem_of_selectTokens tree reached whole .refl known asked
  cases done
  cases onlyLocal with
  | false => simpa using And.intro single members
  | true =>
    refine ⟨single.filter _, fun inner => ?_⟩
    rw [if_pos rfl, List.mem_filter, members]
    refine and_congr_right fun selects => ?_
    rw [((growing_selectTokens _ _ _).grows asked).node (known_of_selects known selects)]
    simp

omit since in
theorem mem_of_select {sorted : Bool}
    (given : (select id criteria onlyLocal sorted).answer library start = (.ok ids, grown)) :
    ids.Nodup ∧ ∀ inner, inner ∈ ids ↔
      Selects (library.node start) false (Glob.tokens criteria) id inner ∧
        (onlyLocal = true → (library.node start inner).basedir.isSome = true) := by
  obtain ⟨found, middle, chosen, ordered⟩ := answer_bind_eq_ok_iff.mp given
  obtain ⟨single, members⟩ := mem_of_selectIds tree reached whole known chosen
  have since := (growing_selectIds _ _ _).grows chosen
  have bound : ∀ inner ∈ found, inner < middle.next library := fun inner member =>
    Nat.lt_of_lt_of_le (known_of_selects known ((members inner).mp member).1) since.next_le
  have same := perm_of_arranged tree (reached.trans since) bound single ordered
  exact ⟨same.nodup_iff.mpr single, fun inner => same.mem_iff.trans (members inner)⟩

end

end Query

namespace Library
section
variable {library : Library} (tree : library.arena.IsTree) {registry : Registry}
  (reached : Reached library registry)
include tree reached

theorem path_of_leads {outer inner : ResourceId} {way : List Node}
    (leads : Leads (library.node registry) outer way inner) :
    (library.node registry inner).path.segments =
      (library.node registry outer).path.segments ++ way.map Node.name := by
  induction leads with
  | here => simp
  | down up _ ih =>
    rw [ih, (joined_of_parent tree reached up).2.path, ResourcePath.child, List.map_cons,
      List.append_assoc, List.singleton_append]

theorem lt_frozen_of_parent {id above : ResourceId} (frozen : above < library.frozen.size)
    (up : (library.node registry id).parent = some above) : id < library.frozen.size := by
  have known : above < registry.next library := Nat.lt_add_right _ frozen
  obtain ⟨name, below⟩ := Node.exists_child?_of_mem_children
    ((mem_children_iff tree reached known).mpr up)
  obtain ⟨_, there, _⟩ := tree.child (node?_of_lt frozen registry) below
  exact lt_of_node? there

variable (registry) in
omit reached in
theorem exists_joined_of_ne_root {id : ResourceId} (frozen : id < library.frozen.size)
    (away : id ≠ root) :
    ∃ above < id, (library.node registry above).Joined (library.node registry id) ∧
      (library.node registry id).parent = some above := by
  have here := node?_of_lt frozen registry
  obtain ⟨above, there, joined⟩ := tree.above here away
  have lower := joined.later
  rw [tree.own here] at lower
  refine ⟨above.id, lower, ?_, joined.parent⟩
  rw [node_of_node? there registry]
  exact joined

omit reached in
theorem modulesBelow_root {id : ResourceId} (frozen : id < library.frozen.size)
    (module : (library.node registry id).isModule = true) :
    Relation.ReflTransGen (ModuleBelow (library.node registry)) root id := by
  induction h : id using Nat.strongRecOn generalizing id with
  | ind k ih =>
    subst h
    by_cases top : id = root
    · rw [top]
    · obtain ⟨above, lower, joined, up⟩ := exists_joined_of_ne_root tree registry frozen top
      exact (ih above lower (lower.trans frozen) joined.isModule rfl).tail ⟨up, module⟩

theorem inner_lt_frozen_of_atOrBelow {outer inner : ResourceId} (frozen : outer < library.frozen.size)
    (below : AtOrBelow (library.node registry) outer inner) : inner < library.frozen.size := by
  induction below using Relation.ReflTransGen.head_induction_on with
  | refl => exact frozen
  | head up _ ih => exact lt_frozen_of_parent tree reached ih up

theorem selects_everything_iff {id : ResourceId} :
    Selects (library.node registry) false ["**", "*"] root id ↔
      0 < id ∧ id < library.frozen.size := by
  rw [selects_over]
  constructor
  · rintro ⟨middle, reach, selects⟩
    have frozen := inner_lt_frozen_of_atOrBelow tree reached (size_pos_of_isTree tree)
      (atOrBelow_of_modulesBelow reach)
    obtain ⟨inside, place⟩ := (selects_child (by decide)).mp selects
    refine ⟨Nat.pos_of_ne_zero ?_, ?_⟩
    · rintro rfl
      obtain ⟨top, here, isTop⟩ := tree.top
      have same : library.node registry 0 = top := node_of_node? here registry
      rw [same, isTop.isRoot] at inside
      cases inside
    · rcases place with ⟨up, _⟩ | ⟨_, _, rfl⟩
      · exact lt_frozen_of_parent tree reached frozen up
      · exact frozen
  · rintro ⟨positive, frozen⟩
    obtain ⟨above, lower, joined, up⟩ :=
      exists_joined_of_ne_root tree registry frozen positive.ne'
    refine ⟨above, modulesBelow_root tree (lower.trans frozen) joined.isModule, ?_⟩
    exact (selects_child (by decide)).mpr ⟨joined.inner, .inl ⟨up, .inl rfl⟩⟩

end

/-- Criteria select, each once, the resources at or below a module whose way down they stand for,
and two stars in front of one select every resource of the library. -/
theorem selection_of_criteria {settings : Settings} {host : Host} {load : ImportLoader}
    {catalog : Catalog} {library : Library}
    (built : build settings host load catalog = .ok library) (session : List Request) :
    let registry := library.after session
    let nodes := library.node registry
    (∀ outer way inner, Leads nodes outer way inner →
      (nodes inner).path.segments = (nodes outer).path.segments ++ way.map Node.name) ∧
    (∀ module criteria onlyLocal sorted found grown,
      module < library.frozen.size + registry.nodes.size →
      (∀ token ∈ Glob.tokens criteria, "**".toList <:+: token.toList → token = "**") →
      (Query.select module criteria onlyLocal sorted).answer library registry =
        (.ok found, grown) →
      found.Nodup ∧ ∀ id, id ∈ found ↔
        Selects nodes false (Glob.tokens criteria) module id ∧
          (onlyLocal = true → (nodes id).basedir.isSome = true)) ∧
    (∀ sorted found grown,
      (Query.select root "**/*" false sorted).answer library registry = (.ok found, grown) →
      found.Nodup ∧ ∀ id, id ∈ found ↔ 0 < id ∧ id < library.frozen.size) := by
  intro registry nodes
  have tree := isTree_of_build built
  have reached := library.reached_after session
  refine ⟨?paths, ?chosen, ?everything⟩
  case paths => exact fun _ _ _ leads => path_of_leads tree reached leads
  case chosen =>
    intro module criteria onlyLocal sorted found grown known whole given
    refine Query.mem_of_select tree reached (fun token member deep => whole token member ?_) known given
    exact (Text.holdsPair_iff '*' '*' token.toList).mp deep
  case everything =>
    intro sorted found grown given
    have known : root < registry.next library := Nat.lt_add_right _ (size_pos_of_isTree tree)
    obtain ⟨single, members⟩ :=
      Query.mem_of_select tree reached Query.whole_everything known given
    refine ⟨single, fun id => ?_⟩
    rw [members, Query.tokens_everything, selects_everything_iff tree reached]
    simp

theorem selection_of_criteria_tiny :
    ∃ library found all, build (.ofRoot ⟨"/"⟩) "now" .none tiny = .ok library ∧
      (Query.select root "tools/e*r//" false false).answer library .empty = (.ok found, .empty) ∧
      2 ∈ found ∧
      (∃ grown, (Query.select root "**/*" false false).answer library .empty =
        (.ok all, grown)) ∧ all.Nodup ∧ ∀ id, id ∈ all ↔ id = 1 ∨ id = 2 := by
  obtain ⟨library, built, size, ⟨all, last, asked⟩, first, second, outer, inner, module, inside⟩ :
      ∃ library, build (.ofRoot ⟨"/"⟩) "now" .none tiny = .ok library ∧ library.frozen.size = 3 ∧
      (∃ all grown, (Query.select root "**/*" false false).answer library .empty =
        (.ok all, grown)) ∧
      (library.node .empty 1).parent = some root ∧ (library.node .empty 2).parent = some 1 ∧
      (library.node .empty 1).name = "tools" ∧ (library.node .empty 2).name = "editor" ∧
      (library.node .empty 1).isModule = true ∧ (library.node .empty 2).isRoot = false :=
    ⟨_, rfl, rfl, ⟨_, _, rfl⟩, rfl, rfl, rfl, rfl, rfl, rfl⟩
  have tokens : Glob.tokens "tools/e*r//" = ["tools", "e*r"] :=
    (Glob.tokens_eq_iff (by decide)).mpr ⟨by decide, by decide, 2, by decide⟩
  have plain : ∀ token ∈ Glob.tokens "tools/e*r//", Glob.isDeep token = false := by
    rw [tokens]
    decide
  obtain ⟨found, given⟩ := Query.answer_select_of_plain plain root false
  obtain ⟨_, chosen, everything⟩ := selection_of_criteria built []
  refine ⟨library, found, all, built, given, ?_, ⟨last, asked⟩, ?_⟩
  · have known : root < library.frozen.size + 0 := by
      rw [size]
      decide
    have whole : ∀ token ∈ Glob.tokens "tools/e*r//",
        "**".toList <:+: token.toList → token = "**" := by
      rw [tokens]
      decide
    have spelled : Fits "tools" (library.node .empty 1).name ∧
        Fits "e*r" (library.node .empty 2).name := by
      rw [outer, inner, fits_iff, fits_iff]
      decide +kernel
    refine ((chosen root "tools/e*r//" false false found _ known whole given).2 2).mpr
      ⟨⟨inside, _, .down first (.down second (.here 2)), ?_⟩, nofun⟩
    rw [tokens]
    exact .into (by decide) module spelled.1 (.child (by decide) spelled.2)
  · obtain ⟨single, same⟩ := everything false all last asked
    refine ⟨single, fun id => ?_⟩
    rw [same, size]
    unfold ResourceId at *
    omega

end Library
end ResourceLibrary
