import Mathlib.Data.List.Induction
import ResourceLibrary.Proofs.Arena.Inheritance
import ResourceLibrary.Proofs.Arena.Siblings

/-!
Two parts of one module, added in either order. Main statement: where both orders are taken, they
make nodes of the same paths and kinds; the part that comes first gives a new node its header, and
so the order shows at the paths that both parts declare and below them, and nowhere else.
-/

namespace ResourceLibrary

theorem ResourcePath.child_of_ne_root {path : ResourcePath} (inner : path ≠ .root) :
    ∃ outer name, path = ResourcePath.child outer name := by
  obtain ⟨front, last, same⟩ := (List.eq_nil_or_concat path.segments).resolve_left
    fun empty => inner (ResourcePath.ext empty)
  exact ⟨⟨front⟩, last, ResourcePath.ext (by simpa [ResourcePath.child] using same)⟩

/-- Two headers that bear alike on the version, the basedir and the properties of what is made of
them and of all that stands below it. -/
structure Header.SameBearing (header other : Header) : Prop where
  version : other.version = header.version
  classifier : other.classifier = header.classifier
  basedir : other.basedir = header.basedir
  properties : other.properties = header.properties

theorem Header.SameBearing.refl (header : Header) : header.SameBearing header :=
  ⟨rfl, rfl, rfl, rfl⟩

structure Node.SameBearing (node other : Node) : Prop where
  path : other.path = node.path
  version : other.version = node.version
  statutoryVersion : other.statutoryVersion = node.statutoryVersion
  basedir : other.basedir = node.basedir
  properties : other.properties = node.properties

theorem Node.SameBearing.refl (node : Node) : node.SameBearing node := ⟨rfl, rfl, rfl, rfl, rfl⟩

namespace Header.SameBearing
variable {header other : Header} (headers : header.SameBearing other) {above around : Node}
  (nodes : above.SameBearing around) (ground : Ground)
include headers

theorem isAnonymous : other.isAnonymous = header.isAnonymous := by
  rw [Header.isAnonymous, headers.classifier, Header.isAnonymous]

include nodes

theorem inherited : other.inherited around = header.inherited above := by
  rw [Header.inherited, nodes.properties, headers.properties, Header.inherited]

theorem statutoryVersion? : other.statutoryVersion? around = header.statutoryVersion? above := by
  rw [Header.statutoryVersion?, headers.version, headers.isAnonymous, nodes.statutoryVersion,
    Header.statutoryVersion?]

theorem version? : other.version? ground around = header.version? ground above := by
  rw [Header.version?, headers.statutoryVersion? nodes, headers.isAnonymous,
    headers.inherited nodes, Header.version?]

theorem basedir? (name : other.name = header.name) :
    other.basedir? ground around = header.basedir? ground above := by
  rw [Header.basedir?, headers.basedir, headers.inherited nodes, Node.anchor, nodes.basedir,
    Header.isProject, headers.classifier, nodes.path, name]
  rfl

theorem node (name : other.name = header.name) (basedir : Option FilePath) :
    (header.node ground above 0 basedir).unnumbered.SameBearing
      (other.node ground around 0 basedir).unnumbered := by
  have version := headers.version? nodes ground
  constructor
  · simp [Header.node, nodes.path, name]
  · simpa [Header.node] using version
  · simpa [Header.node] using headers.statutoryVersion? nodes
  · simp [Header.node]
  · simp [Header.node, version, headers.inherited nodes, nodes.path, name]

end Header.SameBearing

namespace Layout
variable {ground : Ground} {layout grown : Layout}

def MadeFrom (ground : Ground) (layout : Layout) (path : ResourcePath) (header : Header)
    (node : Node) : Prop :=
  ∃ outer above basedir, path = outer.child header.name ∧ layout outer = some above ∧
    header.basedir? ground above = .ok basedir ∧
    node = (header.node ground above 0 basedir).unnumbered

namespace MadeFrom
variable {path : ResourcePath} {header : Header} {node : Node}
  (made : layout.MadeFrom ground path header node)
include made

theorem header_eq : node.header = some header := by
  obtain ⟨_, _, _, _, _, _, rfl⟩ := made
  simp [Header.node]

theorem isModule_eq : node.isModule = header.isModule := by
  obtain ⟨_, _, _, _, _, _, rfl⟩ := made
  simp

theorem get?_filters (token : String) : node.filters.get? token = header.filterValue? token := by
  obtain ⟨_, above, basedir, _, _, _, rfl⟩ := made
  rw [Node.filters_unnumbered, Header.get?_filters_node]

end MadeFrom

theorem Extends.madeFrom_of_free {stated : List (ResourcePath × Header)}
    (extended : layout.Extends ground stated grown) {path : ResourcePath} {node : Node}
    (inner : path ≠ .root) (free : layout path = none) (stands : grown path = some node) :
    ∃ header, stated.lookup path = some header ∧ grown.MadeFrom ground path header node := by
  obtain ⟨outer, name, rfl⟩ := ResourcePath.child_of_ne_root inner
  obtain ⟨above, header, basedir, here, rfl, given, made⟩ := extended.made free stands
  have own : grown.MadeFrom ground (outer.child header.name) header node :=
    ⟨outer, above, basedir, rfl, here, given, made⟩
  refine ⟨header, ?_, own⟩
  have found := extended.header free
  rw [stands, Option.map_some, own.header_eq, eq_comm, Option.map_eq_some_iff] at found
  obtain ⟨other, first, same⟩ := found
  rw [first, same]

mutual

theorem module_of_stated {layout grown : Layout} {place path : ResourcePath} {node : Node}
    {header : Header} :
    ∀ declaration, layout.add ground place declaration = .ok grown → layout path = some node →
      (path, header) ∈ declaration.stated place → node.isModule = true
  | ⟨_, nested⟩, done, stands, stated => by
    obtain ⟨admitted, settled, entry, below⟩ := add_eq_ok_iff.mp done
    rw [Declaration.stated, List.mem_cons] at stated
    rcases stated with own | inner
    · cases own
      rcases settle_cases entry with ⟨present, module, _⟩ | ⟨free, _⟩
      · rw [stands, Option.some.injEq] at present
        exact present ▸ module
      · rw [stands] at free
        cases free
    · have kept := (extends_settle (eq_some_of_admitted admitted) entry).kept stands
      exact module_of_statedAll nested below kept inner

theorem module_of_statedAll {layout grown : Layout} {place path : ResourcePath} {node : Node}
    {header : Header} :
    ∀ declarations, layout.addAll ground place declarations = .ok grown →
      layout path = some node → (path, header) ∈ Declaration.statedAll place declarations →
      node.isModule = true
  | [], _, _, stated => by cases stated
  | declaration :: rest, done, stands, stated => by
    obtain ⟨mid, first, further⟩ := addAll_cons_eq_ok_iff.mp done
    rw [Declaration.statedAll, List.mem_append] at stated
    rcases stated with here | later
    · exact module_of_stated declaration first stands here
    · exact module_of_statedAll rest further ((extends_add declaration first).kept stands) later

end

def Shared (layout : Layout) (place : ResourcePath) (first second : Declaration)
    (path : ResourcePath) (header other : Header) : Prop :=
  layout path = none ∧ Declaration.first? place [first] path = some header ∧
    Declaration.first? place [second] path = some other

section
variable {place path : ResourcePath} {first second : Declaration} {one two : Layout}

theorem Shared.symm {header other : Header}
    (shared : layout.Shared place first second path header other) :
    layout.Shared place second first path other header :=
  ⟨shared.1, shared.2.2, shared.2.1⟩

theorem header_of_free (ahead : layout.addAll ground place [first, second] = .ok one)
    (free : layout path = none) :
    (one path).map (·.header) = ((Declaration.first? place [first] path).or
      (Declaration.first? place [second] path)).map some := by
  rw [← Declaration.first?_append]
  exact (extends_addAll _ ahead).header free

theorem Shared.isModule (ahead : layout.addAll ground place [first, second] = .ok one)
    {header other : Header} (shared : layout.Shared place first second path header other)
    {node : Node} (stands : one path = some node) : node.isModule = true := by
  obtain ⟨free, early, late⟩ := shared
  obtain ⟨mid, before, after⟩ := addAll_cons_eq_ok_iff.mp ahead
  have made := (extends_addAll [first] (addAll_cons_eq_ok_iff.mpr
    ⟨mid, before, addAll_nil_eq_ok_iff.mpr rfl⟩)).header free
  rw [Declaration.first?] at early late
  rw [early, Option.map_some, Option.map_eq_some_iff] at made
  obtain ⟨old, there, _⟩ := made
  have kept := (extends_addAll [second] after).kept there
  rw [stands, Option.some.injEq] at kept
  have stated : (path, other) ∈ Declaration.statedAll place [second] := by
    obtain ⟨_, _, split, _⟩ := List.lookup_eq_some_iff.mp late
    simp [split]
  exact kept ▸ module_of_statedAll [second] after there stated

variable (ahead : layout.addAll ground place [first, second] = .ok one)
  (behind : layout.addAll ground place [second, first] = .ok two)
include ahead behind

theorem isSome_of_parts : (one path).isSome = (two path).isSome := by
  cases old : layout path with
  | some node =>
    rw [(extends_addAll _ ahead).kept old, (extends_addAll _ behind).kept old]
  | none =>
    have here := congrArg Option.isSome (header_of_free ahead old)
    have there := congrArg Option.isSome (header_of_free behind old)
    simp only [Option.isSome_map, Option.isSome_or] at here there
    rw [here, there, Bool.or_comm]

/-- What the two orders make of one path. What stood there before stays in both. Else each order
makes a node of a header: of the one stated for the path, if one part states it; and if both do, of
the one that the first part of the order states. -/
theorem parts_cases (rooted : layout .root ≠ none) {node copy : Node} (here : one path = some node)
    (there : two path = some copy) :
    (layout path = some node ∧ copy = node) ∨
    ∃ header other, one.MadeFrom ground path header node ∧ two.MadeFrom ground path other copy ∧
      (layout.Shared place first second path header other ∨
        (∀ h o, ¬layout.Shared place first second path h o) ∧ other = header) := by
  cases old : layout path with
  | some kept =>
    have one := (extends_addAll _ ahead).kept old
    have two := (extends_addAll _ behind).kept old
    rw [here, Option.some.injEq] at one
    rw [there, Option.some.injEq] at two
    exact .inl ⟨by rw [one], by rw [one, two]⟩
  | none =>
    have inner : path ≠ .root := fun atRoot => rooted (atRoot ▸ old)
    obtain ⟨header, stated, made⟩ := (extends_addAll _ ahead).madeFrom_of_free inner old here
    obtain ⟨other, told, also⟩ := (extends_addAll _ behind).madeFrom_of_free inner old there
    refine .inr ⟨header, other, made, also, ?_⟩
    have one := Declaration.first?_append place [first] [second] path
    have two := Declaration.first?_append place [second] [first] path
    rw [show Declaration.first? place ([first] ++ [second]) _ = some header from stated] at one
    rw [show Declaration.first? place ([second] ++ [first]) _ = some other from told] at two
    cases early : Declaration.first? place [first] path with
    | none =>
      rw [early, Option.none_or] at one
      rw [early, Option.or_none, ← one, Option.some.injEq] at two
      refine .inr ⟨fun _ _ shared => ?_, two⟩
      rw [shared.2.1] at early
      cases early
    | some primary =>
      rw [early, Option.some_or, Option.some.injEq] at one
      cases late : Declaration.first? place [second] path with
      | none =>
        rw [late, Option.none_or, early, ← one, Option.some.injEq] at two
        refine .inr ⟨fun _ _ shared => ?_, two⟩
        rw [shared.2.2] at late
        cases late
      | some secondary =>
        rw [late, Option.some_or, Option.some.injEq] at two
        exact .inl ⟨old, one ▸ early, two ▸ late⟩

section
variable (rooted : layout .root ≠ none) {node copy : Node} (here : one path = some node)
  (there : two path = some copy)
include rooted here there

theorem isModule_of_parts : copy.isModule = node.isModule := by
  rcases parts_cases ahead behind rooted here there with ⟨_, same⟩ |
    ⟨header, other, made, also, shared | ⟨_, same⟩⟩
  · rw [same]
  · rw [shared.isModule ahead here, shared.symm.isModule behind there]
  · rw [made.isModule_eq, also.isModule_eq, same]

theorem header_of_shared {header other : Header}
    (shared : layout.Shared place first second path header other) :
    node.header = some header ∧ copy.header = some other := by
  rcases parts_cases ahead behind rooted here there with ⟨stood, _⟩ |
    ⟨primary, secondary, made, also, ⟨_, one, two⟩ | ⟨never, _⟩⟩
  · rw [shared.1] at stood
    cases stood
  · cases shared.2.1.symm.trans one
    cases shared.2.2.symm.trans two
    exact ⟨made.header_eq, also.header_eq⟩
  · exact absurd shared (never header other)

theorem header_of_not_shared
    (never : ∀ header other, ¬layout.Shared place first second path header other) :
    copy.header = node.header := by
  rcases parts_cases ahead behind rooted here there with ⟨_, same⟩ |
    ⟨header, other, made, also, shared | ⟨_, same⟩⟩
  · rw [same]
  · exact absurd shared (never header other)
  · rw [made.header_eq, also.header_eq, same]

theorem filters_of_parts (alike : ∀ header other,
      layout.Shared place first second path header other →
        ∀ token, other.filterValue? token = header.filterValue? token) :
    copy.filters = node.filters := by
  rcases parts_cases ahead behind rooted here there with ⟨_, same⟩ |
    ⟨header, other, made, also, cause⟩
  · rw [same]
  · apply Table.ext_get?
    intro token
    rw [made.get?_filters, also.get?_filters]
    rcases cause with shared | ⟨_, same⟩
    · exact alike header other shared token
    · rw [same]

end

/-- Nodes are alike in both orders where all headers are that both parts state on the way. -/
theorem sameBearing_of_parts (rooted : layout .root ≠ none)
    (alike : ∀ outer header other, path.Within outer →
      layout.Shared place first second outer header other → header.SameBearing other)
    {node copy : Node} (here : one path = some node) (there : two path = some copy) :
    node.SameBearing copy := by
  -- By induction on the path: the node above is alike in both orders, and then so is this one.
  obtain ⟨segments⟩ := path
  induction segments using List.reverseRecOn generalizing node copy with
  | nil =>
    rcases parts_cases ahead behind rooted here there with ⟨_, same⟩ |
      ⟨_, _, ⟨outer, _, _, path, _⟩, _⟩
    · exact same ▸ .refl node
    · simp [ResourcePath.child] at path
  | append_singleton front last ih =>
    rcases parts_cases ahead behind rooted here there with ⟨_, same⟩ |
      ⟨header, other, ⟨outer, above, basedir, path, upper, given, made⟩,
        ⟨inner, around, dir, twin, beyond, got, also⟩, cause⟩
    · exact same ▸ .refl node
    · obtain ⟨rfl, named⟩ := ResourcePath.child_inj.mp
        (show (⟨front⟩ : ResourcePath).child last = outer.child header.name from path)
      obtain ⟨rfl, called⟩ := ResourcePath.child_inj.mp
        (show (⟨front⟩ : ResourcePath).child last = inner.child other.name from twin)
      have nodes : above.SameBearing around :=
        ih (fun outer header other inside => alike outer header other
          (inside.trans (List.prefix_append _ _))) upper beyond
      have headers : header.SameBearing other := by
        rcases cause with shared | ⟨_, same⟩
        · exact alike _ header other (.refl _) shared
        · exact same ▸ .refl header
      have names : other.name = header.name := by rw [← called, named]
      rw [headers.basedir? nodes ground names, given, Except.ok.injEq] at got
      subst got
      exact made ▸ also ▸ headers.node nodes ground names basedir

end
end Layout

namespace Arena

theorem node?_of_addAll_cons {ground : Ground} {arena grown : Arena} {parent : ResourceId}
    {declaration : Declaration} {rest : List Declaration}
    (done : arena.addAll ground parent (declaration :: rest) = .ok grown) :
    arena.node? parent = some (arena.node parent) := by
  obtain ⟨_, _, added, _⟩ := addAll_cons_eq_ok_iff.mp done
  obtain ⟨header, nested⟩ := declaration
  have admitted := (add_eq_ok_iff.mp added).1
  exact node?_of_isModule (Declaration.admit_eq_ok_iff.mp admitted).1

/-- Declarations that can be added in either order make nodes of the same paths and kinds. Where both
state a path that was free, the node there has the header of the one that comes first, and is a
module. Any other node has the same header in both orders, its own filters are the same, and so are
its version, basedir and properties and all filters in force for it, unless headers that both state
for a path on the way to it differ in what bears on these. -/
theorem parts_in_either_order {ground : Ground} {base parent : ResourceId} {arena one two : Arena}
    (steps : Grown ground (start ground base) arena) {first second : Declaration}
    (ahead : arena.addAll ground parent [first, second] = .ok one)
    (behind : arena.addAll ground parent [second, first] = .ok two) :
    let shared := arena.layout.Shared (arena.node parent).path first second
    (∀ path, (∃ id node, one.node? id = some node ∧ node.path = path) ↔
      ∃ id node, two.node? id = some node ∧ node.path = path) ∧
    ∀ {id twin node copy}, one.node? id = some node → two.node? twin = some copy →
      copy.path = node.path →
        copy.isModule = node.isModule ∧
        (∀ header other, shared node.path header other →
          node.header = some header ∧ copy.header = some other ∧ node.isModule = true) ∧
        ((∀ header other, ¬shared node.path header other) → copy.header = node.header) ∧
        ((∀ header other, shared node.path header other →
          ∀ token, other.filterValue? token = header.filterValue? token) →
            copy.filters = node.filters) ∧
        ((∀ outer header other, node.path.Within outer → shared outer header other →
          ∀ token, other.filterValue? token = header.filterValue? token) →
            filtersOf two.node copy = filtersOf one.node node) ∧
        ((∀ outer header other, node.path.Within outer → shared outer header other →
          header.SameBearing other) → node.SameBearing copy) := by
  intro shared
  have tree := (isTree_start ground base).grown steps
  have grove := tree.grown (grown_of_addAll _ ahead)
  have wood := tree.grown (grown_of_addAll _ behind)
  obtain ⟨root, top, isTop⟩ := tree.top
  have rooted : arena.layout .root ≠ none := by
    rw [← isTop.path, tree.layout_of_node? top]
    simp
  have here := node?_of_addAll_cons ahead
  have earlier := layout_addAll ground tree here [first, second]
  have later := layout_addAll ground tree here [second, first]
  rw [ahead, Except.map] at earlier
  rw [behind, Except.map] at later
  constructor
  · intro path
    rw [← grove.isSome_layout_iff, ← wood.isSome_layout_iff,
      Layout.isSome_of_parts earlier.symm later.symm]
  · intro id twin node copy found also path
    have shown := grove.layout_of_node? found
    have seen := wood.layout_of_node? also
    rw [path] at seen
    have kinds := Layout.isModule_of_parts earlier.symm later.symm rooted shown seen
    have filters : ∀ {id twin node copy}, one.node? id = some node → two.node? twin = some copy →
        copy.path = node.path → (∀ header other, shared node.path header other →
          ∀ token, other.filterValue? token = header.filterValue? token) →
        copy.filters = node.filters := by
      intro id twin node copy found also path alike
      have shown := grove.layout_of_node? found
      have seen := wood.layout_of_node? also
      rw [path] at seen
      simpa using Layout.filters_of_parts earlier.symm later.symm rooted shown seen alike
    refine ⟨by simpa using kinds, fun header other both => ?_, fun never => ?_, filters found also path,
      fun alike => ?_, fun alike => ?_⟩
    · obtain ⟨stated, told⟩ :=
        Layout.header_of_shared earlier.symm later.symm rooted shown seen both
      have module := both.isModule earlier.symm shown
      exact ⟨by simpa using stated, by simpa using told, by simpa using module⟩
    · simpa using Layout.header_of_not_shared earlier.symm later.symm rooted shown seen never
    · exact grove.filtersOf_of_filters wood node_of_node? node_of_node? found also path
        fun one two paths inside => filters one two paths fun header other =>
          alike _ header other inside
    · obtain ⟨paths, version, handed, dir, properties⟩ :=
        Layout.sameBearing_of_parts earlier.symm later.symm rooted alike shown seen
      exact ⟨path, by simpa using version, by simpa using handed, by simpa using dir,
        by simpa using properties⟩

def orchard (kind : String) : Declaration :=
  ((Declaration.module "orchard").withVersion "1.0").withNested (.resource kind)

theorem parts_in_either_order_orchard :
    let ground := Ground.of (.ofRoot ⟨"/"⟩) "now" ∅
    ∃ one two, (start ground 0).addAll ground 0 [orchard "apple", orchard "pear"] = .ok one ∧
      (start ground 0).addAll ground 0 [orchard "pear", orchard "apple"] = .ok two ∧
      (one.node 3).path = ⟨["orchard", "pear"]⟩ ∧ (two.node 2).path = ⟨["orchard", "pear"]⟩ ∧
      (one.node 3).SameBearing (two.node 2) := by
  intro ground
  obtain ⟨one, ahead, pear, late⟩ : ∃ one,
      (start ground 0).addAll ground 0 [orchard "apple", orchard "pear"] = .ok one ∧
      one.node? 3 = some (one.node 3) ∧ (one.node 3).path = ⟨["orchard", "pear"]⟩ :=
    ⟨_, rfl, rfl, rfl⟩
  obtain ⟨two, behind, copy, early⟩ : ∃ two,
      (start ground 0).addAll ground 0 [orchard "pear", orchard "apple"] = .ok two ∧
      two.node? 2 = some (two.node 2) ∧ (two.node 2).path = ⟨["orchard", "pear"]⟩ :=
    ⟨_, rfl, rfl, rfl⟩
  obtain ⟨_, nodes⟩ := parts_in_either_order .refl ahead behind
  obtain ⟨_, _, _, _, _, alike⟩ := nodes pear copy (early.trans late.symm)
  refine ⟨one, two, ahead, behind, late, early, alike fun outer header other _ both => ?_⟩
  obtain ⟨_, first, second⟩ := both
  have apples : Declaration.statedAll ((start ground 0).node 0).path [orchard "apple"] =
      [(⟨["orchard"]⟩, (orchard "apple").header), (⟨["orchard", "apple"]⟩, .of .resource "apple")] :=
    rfl
  rw [Declaration.first?, apples] at first
  by_cases atTop : outer = ⟨["orchard"]⟩
  · subst atTop
    cases first
    cases second
    exact .refl _
  · by_cases below : outer = ⟨["orchard", "apple"]⟩
    · subst below
      cases second
    · simp [List.lookup_cons, beq_false_of_ne atTop, beq_false_of_ne below] at first

/-- The version of a part is lost if another one comes first. -/
theorem version_of_later_part :
    let ground := Ground.of (.ofRoot ⟨"/"⟩) "now" ∅
    let stated := (Declaration.module "orchard").withVersion "1.0"
    let bare := Declaration.module "orchard"
    ∃ one two, (start ground 0).addAll ground 0 [stated, bare] = .ok one ∧
      (start ground 0).addAll ground 0 [bare, stated] = .ok two ∧
      (one.node 1).path = ⟨["orchard"]⟩ ∧ (two.node 1).path = ⟨["orchard"]⟩ ∧
      (one.node 1).version = some "1.0" ∧ (two.node 1).version = some "SNAPSHOT" :=
  ⟨_, _, rfl, rfl, rfl, rfl, rfl, rfl⟩

end Arena
end ResourceLibrary
