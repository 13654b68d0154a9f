import ResourceLibrary.Properties.Substitution
import ResourceLibrary.Proofs.Arena.Inheritance

/-!
Headers merged into a module that stands already. Main statement: the header that made a module is
merged into it without a trace if its basedir is read alike with the properties around the module
and with those of the module itself, and is a conflict otherwise.
-/

namespace ResourceLibrary

namespace Header
variable (ground : Ground) (above module : Node) (header : Header)

def dirIn (properties : Properties) (declared : String) : FilePath :=
  ground.resolveBasedir (above.anchor ground) (properties.resolve declared)

def clash? : Option (FilePath × FilePath) :=
  match header.basedir, module.basedir with
  | some declared, some present =>
    let incoming := dirIn ground above module.properties declared
    if incoming.same present then none else some (present, incoming)
  | _, _ => none

/-- A header without products and dependencies, and with no other version than the module's, can
differ from the module only in the basedir. -/
theorem agree_of_bare {header : Header} (products : header.products = [])
    (dependencies : header.dependencies = [])
    (version : ∀ incoming present, header.version = some incoming →
      module.header.bind (·.version) = some present → incoming = present) :
    header.agree ground above module =
      match header.clash? ground above module with
      | some (present, incoming) =>
        .error (.structuralConflict module.path.text (.basedirs present.text incoming.text))
      | none => .ok () := by
  unfold Header.agree clash? dirIn
  simp only [products, dependencies, bind, Except.bind, pure, Except.pure, List.isEmpty_nil,
    Bool.not_true, Bool.false_eq_true, ↓reduceIte]
  cases incoming : header.version with
  | none => grind
  | some first =>
    cases present : module.header.bind (·.version) with
    | none => grind
    | some second =>
      have same := version first second incoming present
      grind

theorem dependencies_of_agree {header : Header}
    (agreed : header.agree ground above module = .ok ()) : header.dependencies = [] := by
  cases stated : header.dependencies with
  | nil => rfl
  | cons first rest =>
    simp only [agree, stated, bind, Except.bind] at agreed
    grind

/-- Keys that a node sets for itself, whatever its header declares. -/
def ownKeys : List String := ["project.name", "project.group", "project.version", "basedir"]

/-- The basedir is read alike with the properties around a module, as for a new node, and with those
that the module has, as for one that stands. -/
def ReadsAlike : Prop :=
  ∀ declared ∈ header.basedir,
    (dirIn ground above module.properties declared).same
      (dirIn ground above (header.inherited above) declared) = true

def twoReadings (declared : String) : MergeConflict :=
  .basedirs (dirIn ground above (header.inherited above) declared).text
    (dirIn ground above module.properties declared).text

theorem get?_properties_node_of_not_mem (id : ResourceId) (basedir : Option FilePath) {key : String}
    (other : key ∉ ownKeys) :
    (header.node ground above id basedir).properties.get? key =
      (header.inherited above).get? key := by
  simp only [ownKeys, List.mem_cons, List.not_mem_nil, or_false, not_or] at other
  obtain ⟨name, group, version, dir⟩ := other
  rw [get?_properties_node, ownProperty?, inherited, Table.get?_overlay]
  simp [name, group, version, dir]

theorem readsAlike_of_tokens {id : ResourceId} {basedir : Option FilePath}
    (made : module.childless = header.node ground above id basedir)
    (foreign : ∀ declared ∈ header.basedir, ∀ key ∈ ownKeys,
      ¬ token key.toList <:+: declared.toList) : header.ReadsAlike ground above module := by
  intro declared stated
  have properties := congrArg Node.properties made
  rw [Node.properties_childless] at properties
  have alike : module.properties.resolve declared = (header.inherited above).resolve declared := by
    rw [Properties.resolve, Properties.resolve, substitute_congr]
    intro key occurs
    rw [properties, get?_properties_node_of_not_mem]
    intro own
    refine foreign declared stated _ own ?_
    rwa [String.toList_ofList]
  rw [dirIn, alike, dirIn, FilePath.same_refl]

/-- A module has no conflict with the header that made it, or one of two readings of its basedir. -/
theorem clash?_cases {id : ResourceId} {basedir : Option FilePath}
    (given : header.basedir? ground above = .ok basedir)
    (made : module.childless = header.node ground above id basedir) :
    header.clash? ground above module = none ∧ header.ReadsAlike ground above module ∨
      ¬ header.ReadsAlike ground above module ∧ ∃ declared ∈ header.basedir,
        header.clash? ground above module =
          some (dirIn ground above (header.inherited above) declared,
            dirIn ground above module.properties declared) := by
  have present := congrArg Node.basedir made
  rw [Node.basedir_childless] at present
  change module.basedir = basedir at present
  unfold basedir? at given
  unfold clash? ReadsAlike
  rw [present]
  cases stated : header.basedir with
  | none => simp
  | some declared =>
    rw [stated] at given
    cases given
    rw [← dirIn]
    by_cases alike : (dirIn ground above module.properties declared).same
      (dirIn ground above (header.inherited above) declared) = true <;> simp [alike]

end Header

namespace Arena

structure Standing (arena : Arena) (parent : ResourceId) (name : String) (id : ResourceId)
    (above module : Node) : Prop where
  outside : arena.node? parent = some above
  inside : arena.node? id = some module
  child : above.child? name = some id
  isModule : module.isModule = true
  segment : ResourcePath.IsSegment name

variable {ground : Ground} {arena grown : Arena} {parent id : ResourceId} {header : Header}
  {nested : List Declaration}

theorem Standing.add_eq {above module : Node}
    (standing : arena.Standing parent header.name id above module) (more : header.isModule = true) :
    arena.add ground parent ⟨header, nested⟩ =
      (header.agree ground above module).bind fun _ =>
        (arena.addAll ground id nested).map fun grown => (id, grown) := by
  obtain ⟨outside, inside, child, isModule, segment⟩ := standing
  have admitted : Declaration.admit above ⟨header, nested⟩ = .ok () :=
    Declaration.admit_eq_ok_iff.mpr ⟨Node.isModule_of_child? child, .inl more, segment⟩
  have entry : arena.enter ground parent header =
      (header.agree ground above module).map fun _ => (id, arena) := by
    simp [enter, node_of_node? outside, node_of_node? inside, child, isModule, more]
  rw [add, node_of_node? outside, admitted, entry]
  cases header.agree ground above module <;> rfl

theorem IsTree.node?_of_enter_fresh (tree : arena.IsTree)
    {entered : Arena} (module : (arena.node parent).isModule = true)
    (fresh : (arena.node parent).child? header.name = none)
    (entry : arena.enter ground parent header = .ok (id, entered)) :
    ∃ basedir, header.basedir? ground (arena.node parent) = .ok basedir ∧
      entered.node? id = some (header.node ground (arena.node parent) id basedir) := by
  rcases enter_cases entry with ⟨present, _⟩ | ⟨_, rfl, basedir, given, rfl⟩
  · rw [fresh] at present
    cases present
  · refine ⟨basedir, given, ?_⟩
    rw [tree.node?_push (by rw [node?_of_isModule module]; rfl), if_pos rfl]

theorem IsTree.standing_of_add (tree : arena.IsTree) (more : header.isModule = true)
    (added : arena.add ground parent ⟨header, nested⟩ = .ok (id, grown)) :
    ∃ above module, grown.Standing parent header.name id above module ∧
      above.childless = (arena.node parent).childless ∧
      ((arena.node parent).child? header.name = none →
        ∃ basedir, header.basedir? ground (arena.node parent) = .ok basedir ∧
          module.childless = header.node ground (arena.node parent) id basedir) := by
  have steps := grown_of_add _ added
  obtain ⟨admitted, entered, entry, below⟩ := add_eq_ok_iff.mp added
  obtain ⟨holds, _, segment⟩ := Declaration.admit_eq_ok_iff.mp admitted
  have here := node?_of_isModule holds
  have middle := tree.entered ⟨parent, header, nested, id, admitted, entry⟩
  obtain ⟨⟨inner, there, path⟩, _⟩ := node?_of_enter tree here entry
  obtain ⟨module, inside, same⟩ := middle.node?_of_grown (grown_of_addAll nested below) there
  obtain ⟨above, outside, alike⟩ := tree.node?_of_grown steps here
  have located : module.path = above.path.child header.name := by
    rw [Node.eq_of_childless Node.path_childless same, path,
      Node.eq_of_childless Node.path_childless alike]
  have child := (tree.grown steps).child?_of_path outside inside located
  have isModule : inner.isModule = true := by
    rcases enter_cases entry with ⟨_, standing, _, _, rfl⟩ | ⟨fresh, _⟩
    · rwa [node_of_node? there] at standing
    · obtain ⟨basedir, _, made⟩ := tree.node?_of_enter_fresh holds fresh entry
      rw [made, Option.some.injEq] at there
      rw [← there, Header.isModule_node, more]
  refine ⟨above, module, ⟨outside, inside, child, ?_, segment⟩, alike, fun fresh => ?_⟩
  · exact (Node.eq_of_childless Node.isModule_childless same).trans isModule
  · obtain ⟨basedir, given, made⟩ := tree.node?_of_enter_fresh holds fresh entry
    rw [made, Option.some.injEq] at there
    exact ⟨basedir, given, by rw [same, ← there, Header.childless_node]⟩

section
variable {base : ResourceId} (steps : Grown ground (start ground base) arena)
  (more : header.isModule = true) (products : header.products = [])
  (dependencies : header.dependencies = [])
  (fresh : (arena.node parent).child? header.name = none)
  (added : arena.add ground parent ⟨header, nested⟩ = .ok (id, grown))
include steps more products dependencies fresh added

/-- A header that is added again leaves all as it is, but for a conflict of basedirs. -/
theorem add_again :
    ∃ basedir, header.basedir? ground (arena.node parent) = .ok basedir ∧
      (grown.node id).childless = header.node ground (arena.node parent) id basedir ∧
      grown.add ground parent (Declaration.alone ⟨header, nested⟩) =
        match header.clash? ground (arena.node parent) (grown.node id) with
        | some (present, incoming) => .error (.structuralConflict (grown.node id).path.text
            (.basedirs present.text incoming.text))
        | none => .ok (id, grown) := by
  obtain ⟨above, module, standing, alike, making⟩ :=
    ((isTree_start ground base).grown steps).standing_of_add more added
  obtain ⟨basedir, given, made⟩ := making fresh
  have stated : module.header = some header := by
    rw [← Node.header_childless, made]
    rfl
  have sameAnchor : above.anchor ground = (arena.node parent).anchor ground := by
    rw [Node.anchor, Node.anchor, Node.eq_of_childless Node.basedir_childless alike]
  have sameClash : header.clash? ground above module =
      header.clash? ground (arena.node parent) module := by
    unfold Header.clash? Header.dirIn
    rw [sameAnchor]
  have agreed := header.agree_of_bare ground above module products dependencies (by
    intro incoming present one two
    rw [stated, Option.bind_some, one] at two
    exact Option.some.inj two)
  rw [node_of_node? standing.inside, Declaration.alone, standing.add_eq more, agreed, sameClash]
  refine ⟨basedir, given, made, ?_⟩
  cases header.clash? ground (arena.node parent) module <;> rfl

/-- The header that made a module changes nothing when it is added to the module again, if its
basedir is read alike; else it is in conflict with itself. It is read alike if it holds no token for
a key that every node sets for itself. -/
theorem header_again :
    (grown.add ground parent (Declaration.alone ⟨header, nested⟩) = .ok (id, grown) ↔
      header.ReadsAlike ground (arena.node parent) (grown.node id)) ∧
    (¬ header.ReadsAlike ground (arena.node parent) (grown.node id) →
      ∃ declared ∈ header.basedir,
        grown.add ground parent (Declaration.alone ⟨header, nested⟩) =
          .error (.structuralConflict (grown.node id).path.text
            (header.twoReadings ground (arena.node parent) (grown.node id) declared))) ∧
    ((∀ declared ∈ header.basedir, ∀ key ∈ Header.ownKeys,
        ¬ token key.toList <:+: declared.toList) →
      header.ReadsAlike ground (arena.node parent) (grown.node id)) := by
  obtain ⟨basedir, given, made, again⟩ :=
    add_again steps more products dependencies fresh added
  rw [again, ← and_assoc]
  refine ⟨?_, header.readsAlike_of_tokens ground _ _ made⟩
  rcases header.clash?_cases ground _ _ given made with
    ⟨clear, read⟩ | ⟨unlike, declared, member, clash⟩
  · rw [clear]
    exact ⟨iff_of_true rfl read, fun unlike => absurd read unlike⟩
  · rw [clash]
    exact ⟨iff_of_false (by simp) unlike, fun _ => ⟨declared, member, rfl⟩⟩

end

def vineyard : Declaration := (Declaration.module "vineyard").withBasedir "$\x7bland\x7d/vineyard"

theorem header_again_vineyard :
    let ground := Ground.of (.ofRoot ⟨"/"⟩) "now" (.ofList [("land", "south")])
    ∃ grown, (start ground 0).add ground 0 vineyard = .ok (1, grown) ∧
      grown.add ground 0 vineyard.alone = .ok (1, grown) := by
  intro ground
  obtain ⟨grown, added⟩ : ∃ grown, (start ground 0).add ground 0 vineyard = .ok (1, grown) :=
    ⟨_, rfl⟩
  obtain ⟨same, _, alike⟩ := header_again .refl rfl rfl rfl rfl added
  have foreign : ∀ declared ∈ vineyard.header.basedir, ∀ key ∈ Header.ownKeys,
      ¬ token key.toList <:+: declared.toList := by decide +kernel
  exact ⟨grown, added, same.mpr (alike foreign)⟩

def eponym : Header :=
  { Header.of .module "eponym" with basedir := some (String.ofList (token "project.name".toList)) }

/-- The basedir of a new node is read before the node has its name, that of a merged header after
it, so the second one differs from the first. -/
theorem header_again_eponym :
    let ground := Ground.of (.ofRoot ⟨"/"⟩) "now" ∅
    ∃ grown, (start ground 0).add ground 0 ⟨eponym, []⟩ = .ok (1, grown) ∧
      grown.add ground 0 ⟨eponym, []⟩ =
        .error (.structuralConflict "eponym" (.basedirs "/$\x7bproject.name\x7d" "/eponym")) := by
  intro ground
  obtain ⟨grown, added, path⟩ : ∃ grown,
      (start ground 0).add ground 0 ⟨eponym, []⟩ = .ok (1, grown) ∧
      (grown.node 1).path = ⟨["eponym"]⟩ := ⟨_, rfl, rfl⟩
  obtain ⟨basedir, given, made, again⟩ := add_again .refl rfl rfl rfl rfl added
  refine ⟨grown, added, again.trans ?_⟩
  have closed : '\x7d' ∉ "project.name".toList := by decide
  have unnamed : (eponym.inherited ((start ground 0).node 0)).get? "project.name" = none := rfl
  have named : (grown.node 1).properties.get? "project.name" = some "eponym" := by
    rw [← Node.properties_childless, made, Header.get?_properties_node, Header.ownProperty?]
    simp [eponym, Header.of]
  have present : (grown.node 1).basedir = some ⟨"/$\x7bproject.name\x7d"⟩ := by
    rw [← Node.basedir_childless, made]
    change Except.ok (some (Host.resolveBasedir _ _ (Properties.resolve _ _))) = _ at given
    rw [resolve_token _ closed, unnamed] at given
    cases given
    decide +kernel
  have incoming : Header.dirIn ground ((start ground 0).node 0) (grown.node 1).properties
      (String.ofList (token "project.name".toList)) = ⟨"/eponym"⟩ := by
    rw [Header.dirIn, resolve_token _ closed, named]
    decide +kernel
  have clash : eponym.clash? ground ((start ground 0).node 0) (grown.node 1) =
      some (⟨"/$\x7bproject.name\x7d"⟩, ⟨"/eponym"⟩) := by
    rw [Header.clash?, present]
    simp only [eponym]
    rw [incoming]
    decide +kernel
  rw [clash, path]
  rfl

end Arena
end ResourceLibrary
