import Mathlib.Data.List.Nodup
import ResourceLibrary.Proofs.Arena.Descent

/-!
What adding a declaration makes of an arena. Main statements: a node that stands there afterwards
stood there before or is declared, and is made of its declaration; all that is declared has a node
at its path; and a declaration that leaves nothing open can be added wherever its name is free.
-/

namespace ResourceLibrary

/-- A header that a declaration has for a path, when the declaration is added below a path. -/
inductive Declares : ResourcePath → Declaration → ResourcePath → Header → Prop
  | here (above : ResourcePath) (header : Header) (nested : List Declaration) :
    Declares above ⟨header, nested⟩ (above.child header.name) header
  | inside {above : ResourcePath} {header : Header} {nested : List Declaration}
    {inner : Declaration} {path : ResourcePath} {other : Header} (member : inner ∈ nested)
    (below : Declares (above.child header.name) inner path other) :
    Declares above ⟨header, nested⟩ path other

namespace Node

def childless (node : Node) : Node :=
  match node.body with
  | .module isRoot _ => { node with body := .module isRoot ∅ }
  | .plain => node

@[simp] theorem childless_withChild (node : Node) (name : String) (child : ResourceId) :
    (node.withChild name child).childless = node.childless := by
  unfold withChild
  split
  · next same => simp [childless, same]
  · rfl

@[simp] theorem path_childless (node : Node) : node.childless.path = node.path := by
  unfold childless
  split <;> rfl

@[simp] theorem header_childless (node : Node) : node.childless.header = node.header := by
  unfold childless
  split <;> rfl

@[simp] theorem basedir_childless (node : Node) : node.childless.basedir = node.basedir := by
  unfold childless
  split <;> rfl

@[simp] theorem version_childless (node : Node) : node.childless.version = node.version := by
  unfold childless
  split <;> rfl

@[simp] theorem deliverables_childless (node : Node) :
    node.childless.deliverables = node.deliverables := by
  unfold childless
  split <;> rfl

@[simp] theorem isModule_childless (node : Node) : node.childless.isModule = node.isModule := by
  unfold childless
  split
  · next same => simp [isModule, same]
  · rfl

theorem eq_of_childless {α : Type} {read : Node → α}
    (blind : ∀ node : Node, read node.childless = read node) {node other : Node}
    (same : node.childless = other.childless) : read node = read other := by
  rw [← blind node, same, blind]

end Node

namespace Header

@[simp] theorem childless_node (ground : Ground) (above : Node) (id : ResourceId) (header : Header)
    (basedir : Option FilePath) :
    (header.node ground above id basedir).childless = header.node ground above id basedir := by
  unfold Node.childless Header.node
  cases header.isModule <;> rfl

@[simp] theorem isModule_node (ground : Ground) (above : Node) (id : ResourceId) (header : Header)
    (basedir : Option FilePath) :
    (header.node ground above id basedir).isModule = header.isModule := by
  unfold Node.isModule Header.node
  cases header.isModule <;> rfl

end Header

namespace Arena
variable {ground : Ground} {arena grown : Arena}

@[simp] theorem childless_gained (parent child : ResourceId) (name : String) (node : Node) :
    (gained parent name child node).childless = node.childless := by
  unfold gained
  split <;> simp

namespace IsTree
variable (tree : arena.IsTree)
include tree

theorem node?_of_entered {entered : Arena} (step : Entered ground arena entered) {id : ResourceId}
    {node : Node} (found : arena.node? id = some node) :
    ∃ kept, entered.node? id = some kept ∧ kept.childless = node.childless := by
  obtain ⟨parent, header, nested, child, admitted, done⟩ := step
  obtain ⟨module, _, _⟩ := Declaration.admit_eq_ok_iff.mp admitted
  have here := node?_of_isModule module
  rcases enter_cases done with ⟨_, _, _, _, rfl⟩ | ⟨_, _, basedir, _, rfl⟩
  · exact ⟨node, found, rfl⟩
  · rw [tree.node?_push (by rw [here]; rfl), found]
    split
    · next last => exact absurd last (Nat.ne_of_lt (id_lt_next found))
    · exact ⟨_, rfl, childless_gained ..⟩

theorem node?_of_grown (steps : Grown ground arena grown) {id : ResourceId} {node : Node}
    (found : arena.node? id = some node) :
    ∃ kept, grown.node? id = some kept ∧ kept.childless = node.childless := by
  induction steps with
  | refl => exact ⟨node, found, rfl⟩
  | tail before step ih =>
    obtain ⟨kept, there, same⟩ := ih
    obtain ⟨last, here, again⟩ := (tree.grown before).node?_of_entered step there
    exact ⟨last, here, again.trans same⟩

end IsTree

def Made (ground : Ground) (arena : Arena) : Prop :=
  ∀ id node header, arena.node? id = some node → node.header = some header →
    ∃ above basedir, node.childless = header.node ground above id basedir

theorem made_start (ground : Ground) (base : ResourceId) : Made ground (start ground base) := by
  intro id node header found stated
  obtain ⟨_, rfl⟩ := node?_start_eq_some_iff.mp found
  cases stated

theorem Made.entered {entered : Arena} (made : arena.Made ground) (tree : arena.IsTree)
    (step : Entered ground arena entered) : entered.Made ground := by
  obtain ⟨parent, header, nested, child, admitted, done⟩ := step
  have here := node?_of_isModule (Declaration.admit_eq_ok_iff.mp admitted).1
  rcases enter_cases done with ⟨_, _, _, _, rfl⟩ | ⟨_, _, basedir, _, rfl⟩
  · exact made
  · intro id node other found stated
    rw [tree.node?_push (by rw [here]; rfl)] at found
    split at found
    · next last =>
      cases found
      cases stated
      exact ⟨_, basedir, by rw [Header.childless_node, last]⟩
    · obtain ⟨old, before, rfl⟩ := Option.map_eq_some_iff.mp found
      rw [header_gained] at stated
      rw [childless_gained]
      exact made id old other before stated

theorem Made.of_grown (made : arena.Made ground) (tree : arena.IsTree)
    (steps : Grown ground arena grown) : grown.Made ground := by
  induction steps with
  | refl => exact made
  | tail before step ih => exact ih.entered (tree.grown before) step

/-- Every node of the second arena stood in the first one, up to its children, or is declared. -/
def Accounted (arena grown : Arena) (declared : ResourcePath → Header → Prop) : Prop :=
  ∀ id node, grown.node? id = some node →
    (∃ old, arena.node? id = some old ∧ node.childless = old.childless) ∨
      ∃ header, declared node.path header ∧ node.header = some header

theorem Accounted.trans {mid : Arena} {first second both : ResourcePath → Header → Prop}
    (before : arena.Accounted mid first) (after : mid.Accounted grown second)
    (left : ∀ path header, first path header → both path header)
    (right : ∀ path header, second path header → both path header) :
    arena.Accounted grown both := by
  intro id node found
  rcases after id node found with ⟨kept, there, same⟩ | ⟨header, declared, stated⟩
  · have path := Node.eq_of_childless Node.path_childless same
    have header := Node.eq_of_childless Node.header_childless same
    rcases before id kept there with ⟨old, here, alike⟩ | ⟨other, declared, stated⟩
    · exact .inl ⟨old, here, same.trans alike⟩
    · exact .inr ⟨other, left _ _ (path ▸ declared), header.trans stated⟩
  · exact .inr ⟨header, right _ _ declared, stated⟩

theorem node?_of_enter (tree : arena.IsTree) {parent id : ResourceId} {above : Node}
    (here : arena.node? parent = some above) {header : Header} {entered : Arena}
    (done : arena.enter ground parent header = .ok (id, entered)) :
    (∃ node, entered.node? id = some node ∧ node.path = above.path.child header.name) ∧
      arena.Accounted entered fun path other =>
        path = above.path.child header.name ∧ other = header := by
  rcases enter_cases done with ⟨present, _, _, _, rfl⟩ | ⟨_, rfl, basedir, _, rfl⟩
  · rw [node_of_node? here] at present
    obtain ⟨inner, there, joined, named⟩ := tree.joined_of_child? here present
    exact ⟨⟨inner, there, by rw [joined.path, named]⟩, fun _ node found => .inl ⟨node, found, rfl⟩⟩
  · have nodes := tree.node?_push (by rw [here]; rfl) header.name
      (header.node ground (arena.node parent) arena.next basedir)
    rw [node_of_node? here] at nodes ⊢
    have last := nodes arena.next
    rw [if_pos rfl] at last
    refine ⟨⟨_, last, rfl⟩, fun other node found => ?_⟩
    rw [nodes] at found
    split at found
    · cases found
      exact .inr ⟨header, ⟨rfl, rfl⟩, rfl⟩
    · obtain ⟨old, before, rfl⟩ := Option.map_eq_some_iff.mp found
      exact .inl ⟨old, before, childless_gained ..⟩

mutual

theorem accounted_of_add {arena grown : Arena} (tree : arena.IsTree) {parent id : ResourceId}
    {above : Node} (here : arena.node? parent = some above) :
    ∀ declaration, arena.add ground parent declaration = .ok (id, grown) →
      arena.Accounted grown (Declares above.path declaration)
  | ⟨header, nested⟩, done => by
    obtain ⟨admitted, entered, entry, below⟩ := add_eq_ok_iff.mp done
    obtain ⟨⟨inner, there, path⟩, nodes⟩ := node?_of_enter tree here entry
    have grove := tree.entered ⟨parent, header, nested, id, admitted, entry⟩
    refine nodes.trans (accounted_of_addAll grove there nested below) ?_ ?_
    · rintro _ _ ⟨rfl, rfl⟩
      exact .here ..
    · rintro _ _ ⟨declaration, member, declares⟩
      exact .inside member (path ▸ declares)

theorem accounted_of_addAll {arena grown : Arena} (tree : arena.IsTree) {parent : ResourceId}
    {above : Node} (here : arena.node? parent = some above) :
    ∀ declarations, arena.addAll ground parent declarations = .ok grown →
      arena.Accounted grown fun path header =>
        ∃ declaration ∈ declarations, Declares above.path declaration path header
  | [], done => by
    rw [addAll] at done
    cases done
    exact fun _ node found => .inl ⟨node, found, rfl⟩
  | declaration :: rest, done => by
    obtain ⟨id, mid, first, further⟩ := addAll_cons_eq_ok_iff.mp done
    have steps := grown_of_add declaration first
    obtain ⟨kept, there, alike⟩ := tree.node?_of_grown steps here
    have path := Node.eq_of_childless Node.path_childless alike
    refine (accounted_of_add tree here declaration first).trans
      (accounted_of_addAll (tree.grown steps) there rest further) ?_ ?_
    · exact fun _ _ declares => ⟨declaration, by simp, declares⟩
    · rintro _ _ ⟨other, member, declares⟩
      exact ⟨other, by simp [member], path ▸ declares⟩

end

/-- All that is declared has a node at its path. -/
theorem node?_of_declares {place path : ResourcePath} {declaration : Declaration} {other : Header}
    (declares : Declares place declaration path other) :
    ∀ {arena grown : Arena} {parent id : ResourceId} {above : Node}, arena.IsTree →
      arena.node? parent = some above → above.path = place →
      arena.add ground parent declaration = .ok (id, grown) →
      ∃ found node, grown.node? found = some node ∧ node.path = path := by
  induction declares with
  | here place header nested =>
    intro arena grown parent id above tree here same done
    obtain ⟨admitted, entered, entry, below⟩ := add_eq_ok_iff.mp done
    obtain ⟨⟨inner, there, path⟩, _⟩ := node?_of_enter tree here entry
    have grove := tree.entered ⟨parent, header, nested, id, admitted, entry⟩
    obtain ⟨kept, last, alike⟩ := grove.node?_of_grown (grown_of_addAll nested below) there
    exact ⟨id, kept, last, by rw [Node.eq_of_childless Node.path_childless alike, path, same]⟩
  | @inside place header nested inner path other member below ih =>
    intro arena grown parent id above tree here same done
    obtain ⟨admitted, entered, entry, rest⟩ := add_eq_ok_iff.mp done
    obtain ⟨⟨outer, there, outside⟩, _⟩ := node?_of_enter tree here entry
    have grove := tree.entered ⟨parent, header, nested, id, admitted, entry⟩
    obtain ⟨front, back, rfl⟩ := List.append_of_mem member
    rw [addAll_append] at rest
    obtain ⟨mid, before, further⟩ := bind_eq_ok_iff.mp rest
    obtain ⟨child, last, added, behind⟩ := addAll_cons_eq_ok_iff.mp further
    have early := grown_of_addAll front before
    obtain ⟨kept, still, alike⟩ := grove.node?_of_grown early there
    have located : kept.path = place.child header.name := by
      rw [Node.eq_of_childless Node.path_childless alike, outside, same]
    obtain ⟨found, node, stands, path⟩ := ih (grove.grown early) still located added
    have grown := (grove.grown early).grown (grown_of_add inner added)
    obtain ⟨final, present, again⟩ := grown.node?_of_grown (grown_of_addAll back behind) stands
    exact ⟨found, final, present, (Node.eq_of_childless Node.path_childless again).trans path⟩

end Arena

/-- A declaration that nothing keeps from being added where its name is free. -/
inductive Declaration.Plantable : Declaration → Prop
  | intro {header : Header} {nested : List Declaration}
    (segment : ResourcePath.IsSegment header.name) (basedir : header.basedir = none)
    (project : header.isProject = false) (holds : header.isModule = true ∨ nested = [])
    (single : (nested.map (·.header.name)).Nodup)
    (inner : ∀ declaration ∈ nested, declaration.Plantable) : Plantable ⟨header, nested⟩

theorem Declares.prefix_path {above path : ResourcePath} {declaration : Declaration}
    {header : Header} (declares : Declares above declaration path header) :
    (above.child declaration.header.name).segments <+: path.segments := by
  induction declares with
  | here => exact List.prefix_rfl
  | inside _ _ ih => exact (List.prefix_append _ _).trans ih

theorem Declares.unique {above path : ResourcePath} {declaration : Declaration}
    (plantable : declaration.Plantable) {first second : Header}
    (one : Declares above declaration path first) (two : Declares above declaration path second) :
    first = second := by
  induction one with
  | here above header nested =>
    cases two with
    | here => rfl
    | inside _ below =>
      have longer := below.prefix_path.length_le
      simp [ResourcePath.child] at longer
  | inside member below ih =>
    cases two with
    | here =>
      have longer := below.prefix_path.length_le
      simp [ResourcePath.child] at longer
    | inside also other =>
      obtain ⟨_, _, _, _, single, inner⟩ := plantable
      have ways := List.prefix_of_prefix_length_le below.prefix_path other.prefix_path (by
        simp [ResourcePath.child])
      have same := ways.eq_of_length (by simp [ResourcePath.child])
      have names := List.append_inj_right' same rfl
      rw [List.cons.injEq] at names
      cases List.inj_on_of_nodup_map single member also names.1
      exact ih (inner _ member) other

section
variable {modules : List String} {declaration : Declaration}

theorem Declares.wrap {header : Header} {above path : ResourcePath}
    (declares : Declares ⟨above.segments ++ modules⟩ declaration path header) :
    Declares above (declaration.wrap modules) path header := by
  induction modules generalizing above with
  | nil => simpa [Declaration.wrap] using declares
  | cons name rest ih =>
    have member : Declaration.wrap rest declaration ∈ [Declaration.wrap rest declaration] :=
      List.mem_singleton.mpr rfl
    refine .inside member (ih ?_)
    simpa [ResourcePath.child, Header.of] using declares

theorem Declares.of_wrap {header : Header} {above path : ResourcePath}
    (declares : Declares above (declaration.wrap modules) path header) :
    Declares ⟨above.segments ++ modules⟩ declaration path header ∨
      path.segments <+: above.segments ++ modules ∧ ∃ name, header = .of .module name := by
  induction modules generalizing above with
  | nil => exact .inl (by simpa [Declaration.wrap] using declares)
  | cons name rest ih =>
    change Declares above ⟨.of .module name, [Declaration.wrap rest declaration]⟩ path header
      at declares
    cases declares with
    | here => exact .inr ⟨by simp [ResourcePath.child, Header.of], name, rfl⟩
    | inside member below =>
      rw [List.mem_singleton.mp member] at below
      simpa [ResourcePath.child, Header.of] using ih below

theorem Declaration.Plantable.wrap (segments : ∀ name ∈ modules, ResourcePath.IsSegment name)
    (plantable : declaration.Plantable) : (declaration.wrap modules).Plantable := by
  induction modules with
  | nil => exact plantable
  | cons name rest ih =>
    refine .intro (segments name (by simp)) rfl rfl (.inl rfl) (List.nodup_singleton _) ?_
    intro inner member
    rw [List.mem_singleton.mp member]
    exact ih fun other inRest => segments other (by simp [inRest])

end

namespace Arena
variable {ground : Ground}

/-- The declaration can be added wherever its name is free, and that leaves alone all that stood
there but the node that it is added below. -/
def Fits (ground : Ground) (declaration : Declaration) : Prop :=
  ∀ (arena : Arena) (parent : ResourceId) (above : Node), arena.IsTree →
    arena.node? parent = some above → above.isModule = true →
    above.child? declaration.header.name = none →
    ∃ id grown, arena.add ground parent declaration = .ok (id, grown) ∧
      (∀ other node, other ≠ parent → arena.node? other = some node →
        grown.node? other = some node) ∧
      ∃ after, grown.node? parent = some after ∧ after.isModule = true ∧
        ∀ name ≠ declaration.header.name, after.child? name = above.child? name

theorem exists_addAll {declarations : List Declaration}
    (fits : ∀ declaration ∈ declarations, Fits ground declaration)
    (single : (declarations.map (·.header.name)).Nodup) {arena : Arena} {parent : ResourceId}
    {above : Node} (tree : arena.IsTree) (here : arena.node? parent = some above)
    (module : declarations ≠ [] → above.isModule = true)
    (free : ∀ declaration ∈ declarations, above.child? declaration.header.name = none) :
    ∃ grown, arena.addAll ground parent declarations = .ok grown ∧
      ∀ other node, other ≠ parent → arena.node? other = some node →
        grown.node? other = some node := by
  induction declarations generalizing arena above with
  | nil => exact ⟨arena, rfl, fun _ _ _ found => found⟩
  | cons declaration rest ih =>
    obtain ⟨fresh, others⟩ := List.nodup_cons.mp single
    obtain ⟨id, mid, added, kept, after, there, still, children⟩ :=
      fits declaration (by simp) arena parent above tree here (module (by simp)) (free _ (by simp))
    have grove := tree.grown (grown_of_add declaration added)
    have spare : ∀ other ∈ rest, after.child? other.header.name = none := by
      intro other member
      have different : other.header.name ≠ declaration.header.name := fun same =>
        fresh (List.mem_map.mpr ⟨other, member, same⟩)
      rw [children _ different]
      exact free other (by simp [member])
    obtain ⟨grown, further, stays⟩ := ih (fun other member => fits other (by simp [member])) others
      grove there (fun _ => still) spare
    refine ⟨grown, addAll_cons_eq_ok_iff.mpr ⟨id, mid, added, further⟩, ?_⟩
    exact fun other node away found => stays other node away (kept other node away found)

theorem fits_of_plantable {declaration : Declaration} (plantable : declaration.Plantable) :
    Fits ground declaration := by
  induction plantable with
  | @intro header nested segment basedir project holds single inner ih =>
    intro arena parent above tree here module free
    have given : header.basedir? ground above = .ok none := by
      simp [Header.basedir?, basedir, project]
    have admitted : Declaration.admit (arena.node parent) ⟨header, nested⟩ = .ok () := by
      rw [node_of_node? here]
      exact Declaration.admit_eq_ok_iff.mpr ⟨module, holds, segment⟩
    have entry : arena.enter ground parent header =
        .ok (arena.next, arena.push parent header.name
          (header.node ground above arena.next none)) := by
      simp only [enter, node_of_node? here, free, given, Except.map]
    have grove := tree.push ground here module segment free given
    have nodes := tree.node?_push (by rw [here]; rfl) header.name
      (header.node ground above arena.next none)
    have known := id_lt_next here
    have placed := nodes arena.next
    rw [if_pos rfl] at placed
    have holder : nested ≠ [] → (header.node ground above arena.next none).isModule = true := by
      intro some
      rw [Header.isModule_node]
      exact holds.resolve_right some
    obtain ⟨grown, below, kept⟩ := exists_addAll ih single grove placed holder
      fun _ _ => Header.child?_node ..
    have old : ∀ other node, arena.node? other = some node →
        grown.node? other = some (gained parent header.name arena.next node) := by
      intro other node found
      have early := Nat.ne_of_lt (id_lt_next found)
      refine kept other _ early ?_
      rw [nodes, if_neg early, found]
      rfl
    refine ⟨arena.next, grown, add_eq_ok_iff.mpr ⟨admitted, _, entry, below⟩, ?_, _, old _ _ here,
      by simpa using module, ?_⟩
    · intro other node away found
      rw [old other node found, gained, if_neg (by rwa [tree.own found])]
    · intro name different
      rw [child?_gained module, if_neg fun both => different both.2]

end Arena
end ResourceLibrary
