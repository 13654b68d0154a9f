import ResourceLibrary.Proofs.Arena.Merging

/-!
Declarations without what they include at BUILD. Main statement: leaving the BUILD includes out of
declarations leaves them out of what is built of these, and nothing else changes.
-/

namespace ResourceLibrary

namespace Header

def withoutBuild (header : Header) : Header :=
  { header with dependencies := header.dependencies.filter (·.scope ≠ .build) }

theorem includes_withoutBuild (header : Header) {tier : Scope} (above : tier ≠ .build)
    (category : Option Category) :
    header.withoutBuild.includes tier category = header.includes tier category := by
  have same : ∀ dependency : Dependency,
      (decide (dependency.scope = tier) && decide (dependency.scope ≠ .build)) =
        decide (dependency.scope = tier) := by
    intro dependency
    by_cases here : dependency.scope = tier
    · simp [here, above]
    · simp [here]
  simp only [includes, withoutBuild, List.filter_filter, same]

theorem withoutBuild_of_dependencies {header : Header} (none : header.dependencies = []) :
    header.withoutBuild = header := by
  obtain ⟨_⟩ := header
  cases none
  rfl

end Header

namespace Declaration

mutual

def withoutBuild : Declaration → Declaration
  | ⟨header, nested⟩ => ⟨header.withoutBuild, withoutBuildAll nested⟩

def withoutBuildAll : List Declaration → List Declaration
  | [] => []
  | declaration :: rest => declaration.withoutBuild :: withoutBuildAll rest

end

end Declaration

namespace Node
variable (node : Node)

def withoutBuild : Node := { node with header := node.header.map Header.withoutBuild }

@[simp] theorem header_withoutBuild :
    node.withoutBuild.header = node.header.map Header.withoutBuild := rfl

@[simp] theorem path_withoutBuild : node.withoutBuild.path = node.path := rfl

@[simp] theorem isModule_withoutBuild : node.withoutBuild.isModule = node.isModule := rfl

@[simp] theorem isRoot_withoutBuild : node.withoutBuild.isRoot = node.isRoot := rfl

@[simp] theorem children_withoutBuild : node.withoutBuild.children = node.children := rfl

@[simp] theorem child?_withoutBuild (name : String) :
    node.withoutBuild.child? name = node.child? name := rfl

@[simp] theorem produces_withoutBuild (id : String) :
    node.withoutBuild.produces id = node.produces id := rfl

@[simp] theorem text_withoutBuild : node.withoutBuild.text = node.text := by
  obtain ⟨_, _, _, header, _⟩ := node
  cases header <;> rfl

@[simp] theorem withChild_withoutBuild (name : String) (child : ResourceId) :
    node.withoutBuild.withChild name child = (node.withChild name child).withoutBuild := by
  obtain ⟨_, _, _, _, _, _, _, _, _, _, body⟩ := node
  cases body <;> rfl

end Node

namespace Header
variable {ground : Ground} {above module : Node} {header : Header}

theorem node_withoutBuild (id : ResourceId) (basedir : Option FilePath) :
    header.withoutBuild.node ground above.withoutBuild id basedir =
      (header.node ground above id basedir).withoutBuild := rfl

theorem agree_withoutBuild (agreed : header.agree ground above module = .ok ()) :
    header.withoutBuild.agree ground above.withoutBuild module.withoutBuild = .ok () := by
  rw [withoutBuild_of_dependencies (dependencies_of_agree ground above module agreed), ← agreed]
  obtain ⟨_, _, _, stated, _⟩ := module
  cases stated <;> rfl

end Header

namespace Arena

def withoutBuild (arena : Arena) : Arena := ⟨arena.base, arena.nodes.map Node.withoutBuild⟩

@[simp] theorem node_withoutBuild (arena : Arena) (id : ResourceId) :
    arena.withoutBuild.node id = (arena.node id).withoutBuild := by
  unfold Arena.node node? withoutBuild
  simp only [Array.getElem?_map]
  split
  · cases arena.nodes[id - arena.base]? <;> rfl
  · rfl

@[simp] theorem next_withoutBuild (arena : Arena) : arena.withoutBuild.next = arena.next := by
  simp [withoutBuild, next]

theorem push_withoutBuild (arena : Arena) (parent : ResourceId) (name : String) (node : Node) :
    arena.withoutBuild.push parent name node.withoutBuild =
      (arena.push parent name node).withoutBuild := by
  have nodes : ((arena.nodes.map Node.withoutBuild).push node.withoutBuild).modify
      (parent - arena.base) (·.withChild name node.withoutBuild.id) =
        ((arena.nodes.push node).modify (parent - arena.base)
          (·.withChild name node.id)).map Node.withoutBuild := by
    apply Array.ext_getElem?
    intro place
    simp only [Array.getElem?_modify, Array.getElem?_map, ← Array.map_push]
    split
    · cases (arena.nodes.push node)[place]? with
      | none => rfl
      | some present => exact congrArg some (Node.withChild_withoutBuild present name node.id)
    · rfl
  exact congrArg (Arena.mk arena.base) nodes

theorem enter_withoutBuild {ground : Ground} {arena entered : Arena} {parent id : ResourceId}
    {header : Header} (done : arena.enter ground parent header = .ok (id, entered)) :
    arena.withoutBuild.enter ground parent header.withoutBuild =
      .ok (id, entered.withoutBuild) := by
  have name : header.withoutBuild.name = header.name := rfl
  rcases enter_cases done with ⟨present, module, more, agreed, rfl⟩ |
    ⟨fresh, rfl, basedir, given, rfl⟩
  · have both : ((entered.node id).isModule && header.withoutBuild.isModule) = true := by
      rw [module]
      exact more
    simp only [enter, node_withoutBuild, Node.child?_withoutBuild, name, present,
      Node.isModule_withoutBuild, both, ↓reduceIte, Header.agree_withoutBuild agreed]
    rfl
  · have based : header.withoutBuild.basedir? ground (arena.node parent).withoutBuild =
        .ok basedir := given
    simp only [enter, node_withoutBuild, Node.child?_withoutBuild, name, fresh, based,
      next_withoutBuild, Header.node_withoutBuild, push_withoutBuild]
    rfl

theorem admit_withoutBuild {above : Node} {header : Header} {nested : List Declaration}
    (admitted : Declaration.admit above ⟨header, nested⟩ = .ok ()) :
    Declaration.admit above.withoutBuild
      ⟨header.withoutBuild, Declaration.withoutBuildAll nested⟩ = .ok () := by
  obtain ⟨module, inner, segment⟩ := Declaration.admit_eq_ok_iff.mp admitted
  have within : header.isModule = true ∨ Declaration.withoutBuildAll nested = [] := by
    refine inner.imp id fun empty : nested = [] => ?_
    rw [empty]
    rfl
  exact Declaration.admit_eq_ok_iff.mpr ⟨module, within, segment⟩

mutual

theorem add_withoutBuild {ground : Ground} {arena grown : Arena} {parent id : ResourceId} :
    ∀ declaration, arena.add ground parent declaration = .ok (id, grown) →
      arena.withoutBuild.add ground parent declaration.withoutBuild =
        .ok (id, grown.withoutBuild)
  | ⟨header, nested⟩, done => by
    obtain ⟨admitted, entered, entry, below⟩ := add_eq_ok_iff.mp done
    refine add_eq_ok_iff.mpr ⟨?_, _, enter_withoutBuild entry, addAll_withoutBuild nested below⟩
    rw [node_withoutBuild]
    exact admit_withoutBuild admitted

theorem addAll_withoutBuild {ground : Ground} {arena grown : Arena} {parent : ResourceId} :
    ∀ declarations, arena.addAll ground parent declarations = .ok grown →
      arena.withoutBuild.addAll ground parent (Declaration.withoutBuildAll declarations) =
        .ok grown.withoutBuild
  | [], done => by
    rw [addAll] at done
    cases done
    rfl
  | declaration :: rest, done => by
    obtain ⟨id, mid, first, further⟩ := addAll_cons_eq_ok_iff.mp done
    exact addAll_cons_eq_ok_iff.mpr
      ⟨id, _, add_withoutBuild declaration first, addAll_withoutBuild rest further⟩

end

theorem start_withoutBuild (ground : Ground) (base : ResourceId) :
    (start ground base).withoutBuild = start ground base := by
  simp [start, withoutBuild, Node.withoutBuild, Node.root]

end Arena
end ResourceLibrary
