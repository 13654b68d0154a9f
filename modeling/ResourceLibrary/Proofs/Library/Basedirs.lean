import ResourceLibrary.Proofs.Library.Choice
import ResourceLibrary.Proofs.Library.Inheritance
import ResourceLibrary.Proofs.Library.SelectionAgreement
import ResourceLibrary.Proofs.Text.Normalization

/-!
Resources by their basedirs. Main statement: where everything can be selected, a resource is found by
a directory exactly if one stands there, and the resources below a directory are selected exactly.
-/

namespace ResourceLibrary
open Registry (Grows Reached)

theorem Header.settle_of_basedir? {ground : Ground} {above : Node} {header : Header}
    {dir : FilePath} (given : header.basedir? ground above = .ok (some dir)) :
    ∃ path, ground.settle path = dir := by
  unfold basedir? at given
  split at given
  · cases given
    exact ⟨_, rfl⟩
  · split at given <;> cases given

/-- Where no path leads anywhere, what was settled stays as it is. -/
theorem Host.settle_settle {host : Host} (nowhere : ∀ path, host.canonical? path = none)
    (path : FilePath) : host.settle (host.settle path) = host.settle path := by
  rw [settle_of_none (nowhere _), settle_of_none (nowhere _), FilePath.normalize_normalize]

namespace Arena

def Based (arena : Arena) (ground : Ground) : Prop :=
  ∀ id node, arena.node? id = some node → ∀ dir, node.basedir = some dir →
    node.isRoot = false ∧ ∃ path, ground.settle path = dir

theorem based_start (ground : Ground) (base : ResourceId) :
    (start ground base).Based ground := by
  intro id node found dir stands
  obtain ⟨_, rfl⟩ := node?_start_eq_some_iff.mp found
  cases stands

theorem based_of_grown {ground : Ground} {arena grown : Arena} (based : arena.Based ground)
    (steps : Grown ground arena grown) : grown.Based ground := by
  refine forall_of_grown steps based ?made ?kept
  case made =>
    rintro above header id _ given dir rfl
    refine ⟨?_, Header.settle_of_basedir? given⟩
    unfold Node.isRoot Header.node
    cases header.isModule <;> rfl
  case kept =>
    intro node name child holds dir stands
    rw [Node.basedir_withChild] at stands
    rw [Node.isRoot_withChild]
    exact holds dir stands

end Arena

theorem basedir_of_mem_line (ground : Ground) {headers : List Header} {above : Node}
    {id : ResourceId} (top : above.basedir = none) {node : Node}
    (member : node ∈ line ground above id headers) : node.basedir = none := by
  induction headers generalizing above id with
  | nil =>
    rw [line, List.mem_singleton] at member
    rw [member, top]
  | cons header rest ih =>
    rw [line] at member
    rcases List.mem_cons.mp member with rfl | below
    · rw [Node.basedir_withChild, top]
    · exact ih rfl below

def StandsIn (nodes : ResourceId → Node) (place : FilePath) (id : ResourceId) : Prop :=
  ∃ dir, (nodes id).basedir = some dir ∧ dir.same place = true

namespace Library
variable {library : Library} {registry : Registry} {id : ResourceId}

theorem lt_frozen_of_basedir (reached : Reached library registry) {dir : FilePath}
    (stands : (library.node registry id).basedir = some dir) : id < library.frozen.size := by
  have known : id < registry.next library := known_of_ne_absent fun absent => by
    rw [absent] at stands
    cases stands
  refine Nat.lt_of_not_le fun behind => ?_
  obtain ⟨urn, level, inside⟩ := reached.cover behind known
  have ⟨_, _, _, found, _, _⟩ := inside
  obtain ⟨coordinate, base, properties, stored⟩ := reached.stored found
  obtain ⟨_, _, _, here⟩ := stored.place found inside
  rw [basedir_of_mem_line library.ground rfl (List.mem_of_getElem? here)] at stands
  cases stands

theorem based_of_build {settings : Settings} {host : Host} {load : ImportLoader}
    {catalog : Catalog} (built : build settings host load catalog = .ok library) :
    library.arena.Based library.ground :=
  Arena.based_of_grown (Arena.based_start _ _) (grown_of_build built)

theorem settled_basedir (based : library.arena.Based library.ground)
    (reached : Reached library registry) {dir : FilePath}
    (stands : (library.node registry id).basedir = some dir) :
    (library.node registry id).isRoot = false ∧ ∃ path, library.ground.settle path = dir :=
  based id _ (node?_of_lt (lt_frozen_of_basedir reached stands) registry) dir stands

theorem atOrBelow_root (tree : library.arena.IsTree) (registry : Registry)
    (frozen : id < library.frozen.size) : AtOrBelow (library.node registry) root id := by
  rw [atOrBelow_iff_startsWith tree registry (size_pos_of_isTree tree) frozen,
    (top_root tree registry).path, ResourcePath.startsWith_iff]
  exact List.nil_prefix

end Library

theorem selects_everything {library : Library} (tree : library.arena.IsTree)
    {registry : Registry} (reached : Reached library registry) {outer inner : ResourceId} :
    Selects (library.node registry) false ["**", "*"] outer inner ↔
      (library.node registry inner).isRoot = false ∧
        AtOrBelow (library.node registry) outer inner := by
  rw [selects_over]
  constructor
  · rintro ⟨middle, reach, selects⟩
    obtain ⟨inside, place⟩ := (selects_child (by decide)).mp selects
    have below := atOrBelow_of_modulesBelow reach
    rcases place with ⟨up, _⟩ | ⟨_, _, rfl⟩
    · exact ⟨inside, .head up below⟩
    · exact ⟨inside, below⟩
  · rintro ⟨inside, below⟩
    -- All on the way to the parent of a resource are modules, whatever the resource is.
    have around : ∀ {above place}, AtOrBelow (library.node registry) outer above →
        (library.node registry place).parent = some above →
        Relation.ReflTransGen (ModuleBelow (library.node registry)) outer above := by
      intro above place below up
      induction below using Relation.ReflTransGen.head_induction_on generalizing place with
      | refl => exact .refl
      | head higher _ ih =>
        exact (ih higher).tail ⟨higher, (joined_of_parent tree reached up).2.isModule⟩
    rcases Relation.ReflTransGen.cases_head below with rfl | ⟨above, up, higher⟩
    · exact ⟨inner, .refl, (selects_child (by decide)).mpr ⟨inside, .inr ⟨rfl, rfl, rfl⟩⟩⟩
    · exact ⟨above, around higher up, (selects_child (by decide)).mpr ⟨inside, .inl ⟨up, .inl rfl⟩⟩⟩

namespace Query
variable {library : Library} {start grown : Registry} {module : ResourceId}

theorem mem_of_selectEverything (tree : library.arena.IsTree) (reached : Reached library start)
    (known : module < start.next library) {onlyLocal : Bool} {ids : List ResourceId}
    (given : (selectIds module everything onlyLocal).answer library start = (.ok ids, grown)) :
    ids.Nodup ∧ ∀ id, id ∈ ids ↔ ((library.node start id).isRoot = false ∧
      AtOrBelow (library.node start) module id) ∧
        (onlyLocal = true → (library.node start id).basedir.isSome = true) := by
  obtain ⟨single, members⟩ := mem_of_selectIds tree reached whole_everything known given
  refine ⟨single, fun id => ?_⟩
  rw [members, tokens_everything, selects_everything tree reached]

theorem selectEverything_of_select (tree : library.arena.IsTree) {before : Registry}
    (first : Reached library before) (reached : Reached library start)
    (frozen : module < library.frozen.size) {onlyLocal sorted : Bool} {ids : List ResourceId}
    {after : Registry}
    (given : (select module everything onlyLocal sorted).answer library before = (.ok ids, after)) :
    ∃ found last, (selectIds module everything true).answer library start = (.ok found, last) := by
  obtain ⟨chosen, middle, listed, _⟩ := answer_bind_eq_ok_iff.mp given
  obtain ⟨tokens, _, asked, _⟩ := answer_bind_eq_ok_iff.mp listed
  let world : World library := ⟨before, start, first, reached⟩
  have same := world.same_of_lt frozen
  obtain ⟨later, found, _, _, again, _⟩ := answered_of_agree
    (agree_selectTokens tree (.refl world) same false (Glob.tokens everything)) asked
  exact ⟨_, later.right, answer_bind_eq_ok_iff.mpr ⟨found, later.right, again, rfl⟩⟩

/-- A search by a directory finds a resource that stands there, if any of those that count does. -/
def Located (library : Library) (registry : Registry) (module : ResourceId)
    (base place : FilePath) (counts : ResourceId → Prop) : Prop :=
  ∃ grown, (∃ id, (locate module base).answer library registry = (.ok id, grown) ∧ counts id ∧
      StandsIn (library.node registry) place id) ∨
    (locate module base).answer library registry =
      (.error (.resourceNotFound place.text), grown) ∧
    ∀ id, counts id → ¬StandsIn (library.node registry) place id

section
variable (tree : library.arena.IsTree) (based : library.arena.Based library.ground)
  (reached : Reached library start)
include tree based reached

theorem mem_of_selectLocal (known : module < start.next library) {ids : List ResourceId}
    (given : (selectIds module everything true).answer library start = (.ok ids, grown)) :
    ids.Nodup ∧ ∀ id, id ∈ ids ↔ AtOrBelow (library.node start) module id ∧
      (library.node start id).basedir.isSome = true := by
  obtain ⟨single, members⟩ := mem_of_selectEverything tree reached known given
  refine ⟨single, fun id => (members id).trans ⟨fun ⟨⟨_, below⟩, stands⟩ => ⟨below, stands rfl⟩, ?_⟩⟩
  rintro ⟨below, stands⟩
  obtain ⟨dir, here⟩ := Option.isSome_iff_exists.mp stands
  exact ⟨⟨(Library.settled_basedir based reached here).1, below⟩, fun _ => stands⟩

omit tree based in
theorem any_basedir_iff (since : Grows library start grown) {place : FilePath} {id : ResourceId} :
    (library.node grown id).basedir.any place.same = true ↔
      StandsIn (library.node start) place id := by
  have same : ∀ dir : FilePath, place.same dir = dir.same place := fun dir => Bool.beq_comm
  have alike : ∀ dir, (library.node grown id).basedir = some dir ↔
      (library.node start id).basedir = some dir := by
    intro dir
    constructor
    · intro stands
      have frozen := Library.lt_frozen_of_basedir (reached.grows since) stands
      rwa [Library.node_eq_of_lt frozen start grown]
    · intro stands
      have frozen := Library.lt_frozen_of_basedir reached stands
      rwa [Library.node_eq_of_lt frozen grown start]
  rw [Option.any_eq_true, StandsIn]
  exact exists_congr fun dir => and_congr (alike dir) (by rw [same])

theorem located_of_selected (known : module < start.next library)
    (selected : ∃ ids last,
      (selectIds module everything true).answer library start = (.ok ids, last))
    (base : FilePath) :
    Located library start module base (library.ground.settle base)
      (AtOrBelow (library.node start) module) := by
  obtain ⟨ids, last, given⟩ := selected
  obtain ⟨_, members⟩ := mem_of_selectLocal tree based reached known given
  have since := (growing_selectIds _ _ _).grows given
  refine ⟨last, ?_⟩
  rw [locate, answer_settle_bind, answer_bind, given]
  simp only
  rw [answer_bind, answer_nodes]
  simp only
  cases found : ids.find? fun id => (library.node last id).basedir.any (library.ground.settle base).same with
  | some id =>
    have stands := List.find?_some found
    have listed := List.mem_of_find?_eq_some found
    exact .inl ⟨id, rfl, ((members id).mp listed).1, (any_basedir_iff reached since).mp stands⟩
  | none =>
    refine .inr ⟨rfl, fun id below stands => ?_⟩
    have ⟨dir, here, _⟩ := stands
    have listed := (members id).mpr ⟨below, Option.isSome_of_eq_some here⟩
    have away := List.find?_eq_none.mp found id listed
    exact away ((any_basedir_iff reached since).mpr stands)

theorem mem_of_selectBasedir {base : FilePath} {includeSelf : Bool}
    {ids : List ResourceId}
    (given : (selectBasedir base includeSelf).answer library start = (.ok ids, grown)) :
    ids.Nodup ∧ ∀ id, id ∈ ids ↔ ∃ dir, (library.node start id).basedir = some dir ∧
      if dir.same (library.ground.settle base) = true then includeSelf = true
      else (library.ground.settle base).components <+: dir.components := by
  rw [selectBasedir, answer_settle_bind] at given
  obtain ⟨found, middle, chosen, ordered⟩ := answer_bind_eq_ok_iff.mp given
  have root := Library.size_pos_of_isTree tree
  obtain ⟨_, members⟩ :=
    mem_of_selectLocal tree based reached (Nat.lt_add_right _ root) chosen
  have since := (growing_selectIds _ _ _).grows chosen
  have frozen : ∀ id ∈ found, id < library.frozen.size := by
    intro id member
    obtain ⟨dir, stands⟩ := Option.isSome_iff_exists.mp ((members id).mp member).2
    exact Library.lt_frozen_of_basedir reached stands
  rw [answer_bind, answer_nodes] at ordered
  simp only at ordered
  obtain ⟨single, same⟩ := mem_of_sort tree (reached.grows since)
    (fun id member => Nat.lt_add_right _ (frozen id (List.mem_of_mem_filter member))) ordered
  refine ⟨single, fun id => ?_⟩
  rw [same, List.mem_filter, Option.any_eq_true]
  constructor
  · rintro ⟨member, dir, stands, inside⟩
    rw [Library.node_eq_of_lt (frozen id member) middle start] at stands
    refine ⟨dir, stands, ?_⟩
    rw [← FilePath.startsWith_iff]
    split at inside
    · next same => rwa [if_pos same]
    · next apart => rwa [if_neg apart]
  · rintro ⟨dir, stands, inside⟩
    have here := Library.lt_frozen_of_basedir reached stands
    have member := (members id).mpr
      ⟨Library.atOrBelow_root tree start here, Option.isSome_of_eq_some stands⟩
    rw [← Library.node_eq_of_lt here middle start] at stands
    refine ⟨member, dir, stands, ?_⟩
    rw [← FilePath.startsWith_iff] at inside
    split
    · next same => rwa [if_pos same] at inside
    · next apart => rwa [if_neg apart] at inside

end

end Query

namespace Library

/-- Where everything can be selected, a directory finds a resource that stands there exactly if
there is one, its own resource if no other stands there, and the resources that are selected by a
directory are those below it and, if asked for, those in it. In a module the same holds of what lies
at or below the module. A directory is settled first, which leaves a basedir as it is if no path is
on the disk. -/
theorem basedirs_of_build {settings : Settings} {host : Host} {load : ImportLoader}
    {catalog : Catalog} {library : Library}
    (built : build settings host load catalog = .ok library) (asked session : List Request) :
    let registry := library.after session
    let nodes := library.node registry
    let selected := fun module => ∃ onlyLocal sorted found grown,
      (Query.select module "**/*" onlyLocal sorted).answer library (library.after asked) =
        (.ok found, grown)
    (selected root → ∀ base,
      Query.Located library registry root base (host.settle base) fun _ => True) ∧
    (selected root → ∀ id dir, (nodes id).basedir = some dir → host.settle dir = dir →
      (∀ other, StandsIn nodes dir other → other = id) →
        ∃ grown, (Query.locate root dir).answer library registry = (.ok id, grown)) ∧
    ((∀ path, host.canonical? path = none) → (∀ path, host.settle path = path.normalize) ∧
      ∀ id dir, (nodes id).basedir = some dir → host.settle dir = dir) ∧
    (∀ base includeSelf ids grown,
      (Query.selectBasedir base includeSelf).answer library registry = (.ok ids, grown) →
      ids.Nodup ∧ ∀ id, id ∈ ids ↔ ∃ dir, (nodes id).basedir = some dir ∧
        if dir.same (host.settle base) = true then includeSelf = true
        else (host.settle base).components <+: dir.components) ∧
    ∀ module < library.frozen.size, selected module → ∀ base,
      Query.Located library registry module base (host.settle base) (AtOrBelow nodes module) := by
  intro registry nodes selected
  have tree := isTree_of_build built
  have based := based_of_build built
  have reached := library.reached_after session
  have top := size_pos_of_isTree tree
  have same : library.ground.toHost = host := by rw [ground_of_build built, Ground.of]
  have inModule : ∀ module < library.frozen.size, selected module → ∀ base,
      Query.Located library registry module base (host.settle base) (AtOrBelow nodes module) := by
    rintro module frozen ⟨_, _, _, _, given⟩ base
    rw [← same]
    exact Query.located_of_selected tree based reached (Nat.lt_add_right _ frozen)
      (Query.selectEverything_of_select tree (library.reached_after asked) reached frozen given) base
  have inLibrary : selected root → ∀ base,
      Query.Located library registry root base (host.settle base) fun _ => True := by
    intro given base
    obtain ⟨grown, ⟨id, found, _, stands⟩ | ⟨missing, nowhere⟩⟩ := inModule root top given base
    · exact ⟨grown, .inl ⟨id, found, trivial, stands⟩⟩
    · refine ⟨grown, .inr ⟨missing, fun id _ stands => nowhere id ?_ stands⟩⟩
      obtain ⟨dir, here, _⟩ := stands
      exact atOrBelow_root tree registry (lt_frozen_of_basedir reached here)
  refine ⟨inLibrary, ?own, ?settled, ?below, inModule⟩
  case own =>
    intro given id dir stands kept alone
    obtain ⟨grown, ⟨other, found, _, there⟩ | ⟨_, nowhere⟩⟩ := inLibrary given dir
    · rw [kept] at there
      exact ⟨grown, alone other there ▸ found⟩
    · rw [kept] at nowhere
      exact absurd ⟨dir, stands, FilePath.same_refl dir⟩ (nowhere id trivial)
  case settled =>
    intro nowhere
    refine ⟨fun path => Host.settle_of_none (nowhere path), fun id dir stands => ?_⟩
    obtain ⟨path, rfl⟩ := (settled_basedir based reached stands).2
    rw [same]
    exact Host.settle_settle nowhere path
  case below =>
    intro base includeSelf ids grown given
    rw [← same]
    exact Query.mem_of_selectBasedir tree based reached given

def housed : Catalog :=
  Catalog.empty.withResource (((Declaration.module "house").withBasedir "house").withNested
    ((Declaration.resource "attic").withBasedir "roof/../attic"))

theorem basedirs_of_build_housed :
    ∃ library, build (.ofRoot ⟨"/"⟩) "now" .none housed = .ok library ∧
      (library.node .empty 2).basedir = some ⟨"/house/attic"⟩ ∧
      (∃ grown, (Query.locate root ⟨"/house/attic"⟩).answer library .empty = (.ok 2, grown)) ∧
      (Query.selectBasedir ⟨"/house/."⟩ false).answer library .empty = (.ok [2], .empty) ∧
      [2].Nodup ∧ 1 ∉ [2] := by
  obtain ⟨library, built, size, top, house, attic, listed, ordered⟩ : ∃ library,
      build (.ofRoot ⟨"/"⟩) "now" .none housed = .ok library ∧ library.frozen.size = 3 ∧
      (library.node .empty 0).basedir = none ∧
      (library.node .empty 1).basedir = some ⟨"/house"⟩ ∧
      (library.node .empty 2).basedir = some ⟨"/house/attic"⟩ ∧
      (Query.selectIds root "**/*" true).answer library .empty = (.ok [2, 1], .empty) ∧
      (Query.sort [2] .test false).answer library .empty = (.ok [2], .empty) :=
    ⟨_, rfl, rfl, rfl, by decide +kernel, by decide +kernel, rfl, rfl⟩
  obtain ⟨_, own, settled, below, _⟩ := basedirs_of_build built [] []
  have selected : ∃ found grown,
      (Query.select root "**/*" true false).answer library .empty = (.ok found, grown) :=
    ⟨_, _, Query.answer_bind_eq_ok_iff.mpr ⟨[2, 1], .empty, listed, rfl⟩⟩
  have place : library.ground.settle ⟨"/house/."⟩ = FilePath.normalize ⟨"/house/."⟩ := by
    rw [ground_of_build built]
    rfl
  have given : (Query.selectBasedir ⟨"/house/."⟩ false).answer library .empty =
      (.ok [2], .empty) := by
    rw [Query.selectBasedir, Query.answer_settle_bind]
    refine Query.answer_bind_eq_ok_iff.mpr ⟨[2, 1], .empty, listed, ?_⟩
    have inside : FilePath.same ⟨"/house/attic"⟩ (FilePath.normalize ⟨"/house/."⟩) = false ∧
        FilePath.startsWith ⟨"/house/attic"⟩ (FilePath.normalize ⟨"/house/."⟩) = true ∧
        FilePath.same ⟨"/house"⟩ (FilePath.normalize ⟨"/house/."⟩) = true := by decide
    rw [Query.answer_bind, Query.answer_nodes]
    simpa [house, attic, inside, place] using ordered
  refine ⟨library, built, attic, own ⟨true, false, selected⟩ 2 _ attic
    ((settled fun _ => rfl).2 2 _ attic) ?alone, given, ?_⟩
  case alone =>
    rintro other ⟨dir, here, same⟩
    have frozen := lt_frozen_of_basedir (reached_after library []) here
    rw [size] at frozen
    match other, frozen with
    | 0, _ => cases top.symm.trans here
    | 1, _ =>
      cases house.symm.trans here
      exact absurd same (by decide)
    | 2, _ => rfl
  · obtain ⟨single, members⟩ := below _ false _ _ given
    refine ⟨single, fun member => ?_⟩
    obtain ⟨dir, here, strictly⟩ := (members 1).mp member
    cases house.symm.trans here
    exact absurd strictly (by decide)

end Library
end ResourceLibrary
