import Mathlib.Logic.Equiv.Basic
import ResourceLibrary.Proofs.Arena.Siblings
import ResourceLibrary.Proofs.Library.Inheritance

/-!
The order in which siblings are declared. Main statement: where no two siblings have one name, any
order of them at any depths builds a library or builds none, and the libraries differ in the numbers
of their nodes alone.
-/

namespace ResourceLibrary.Library

/-- Two catalogs that differ in the order of siblings alone. -/
structure SameButOrder (first second : Catalog) : Prop where
  imports : first.imports = second.imports
  properties : first.properties = second.properties
  resources : Declaration.Reordered first.resources second.resources

theorem SameButOrder.symm {first second : Catalog} (same : SameButOrder first second) :
    SameButOrder second first :=
  ⟨same.imports.symm, same.properties.symm, same.resources.symm⟩

section
variable {settings : Settings} {host : Host} {load : ImportLoader} {first second : Catalog}

theorem layout_of_sameButOrder (same : SameButOrder first second)
    (single : Declaration.SinglyNamed first.resources) {library : Library}
    (built : build settings host load first = .ok library) :
    ∃ other, build settings host load second = .ok other ∧
      other.arena.layout = library.arena.layout := by
  obtain ⟨imported, loaded, grown⟩ := exists_build_iff.mp ⟨library, built, rfl⟩
  rw [Layout.addAll_append, bind_eq_ok_iff] at grown
  obtain ⟨mid, before, after⟩ := grown
  refine exists_build_iff.mpr ⟨imported, same.imports ▸ loaded, ?_⟩
  rw [← same.properties, Layout.addAll_append, bind_eq_ok_iff]
  exact ⟨mid, before, Layout.addAll_reordered same.resources single after⟩

theorem exists_twins {library other : Library} (tree : library.arena.IsTree)
    (grove : other.arena.IsTree) (layouts : other.arena.layout = library.arena.layout)
    (registry after : Registry) :
    ∃ twin : Fin library.frozen.size ≃ Fin other.frozen.size, ∀ id,
      (other.node after (twin id)).unnumbered = (library.node registry id).unnumbered := by
  have known := fun id : Fin library.frozen.size => node?_of_lt id.isLt registry
  have stands := fun id : Fin other.frozen.size => node?_of_lt id.isLt after
  have there : ∀ id : Fin library.frozen.size, ∃ twin : Fin other.frozen.size,
      (other.node after twin).unnumbered = (library.node registry id).unnumbered := by
    intro id
    have shown := tree.layout_of_node? (known id)
    rw [← layouts] at shown
    obtain ⟨twin, copy, found, _, same⟩ := grove.layout_eq_some_iff.mp shown
    refine ⟨⟨twin, lt_of_node? found⟩, ?_⟩
    rwa [node_of_node? found after]
  choose twin alike using there
  have path : ∀ id, (other.node after (twin id)).path = (library.node registry id).path := by
    intro id
    rw [← Node.path_unnumbered, alike, Node.path_unnumbered]
  refine ⟨.ofBijective twin ⟨fun id also same => ?_, fun copy => ?_⟩, alike⟩
  · refine Fin.ext (tree.path_injective (known id) (known also) ?_)
    rw [← path, ← path, same]
  · have shown := grove.layout_of_node? (stands copy)
    rw [layouts] at shown
    obtain ⟨id, node, found, same, _⟩ := tree.layout_eq_some_iff.mp shown
    refine ⟨⟨id, lt_of_node? found⟩, Fin.ext (grove.path_injective (stands _) (stands copy) ?_)⟩
    rw [path, ← same, node_of_node? found registry]

end

/-- Catalogs that differ in the order of siblings alone build the same library but for the numbers
of its nodes, or none: each node has a twin with the same path, kind, header, version, statutory
version, basedir, properties, deliverables and filters. -/
theorem build_of_sameButOrder (settings : Settings) (host : Host) (load : ImportLoader)
    {first second : Catalog} (same : SameButOrder first second)
    (single : Declaration.SinglyNamed first.resources) :
    ((∃ library, build settings host load first = .ok library) ↔
      ∃ other, build settings host load second = .ok other) ∧
    ∀ library other, build settings host load first = .ok library →
      build settings host load second = .ok other → ∀ registry after,
        let nodes := library.node registry
        let others := other.node after
        ∃ twin : Fin library.frozen.size ≃ Fin other.frozen.size, ∀ id,
          (others (twin id)).unnumbered = (nodes id).unnumbered ∧
            filtersOf others (others (twin id)) = filtersOf nodes (nodes id) := by
  constructor
  · constructor
    · rintro ⟨library, built⟩
      obtain ⟨other, also, _⟩ := layout_of_sameButOrder same single built
      exact ⟨other, also⟩
    · rintro ⟨other, also⟩
      obtain ⟨library, built, _⟩ :=
        layout_of_sameButOrder same.symm (same.resources.singlyNamed single) also
      exact ⟨library, built⟩
  · intro library other built also registry after
    obtain ⟨again, once, layouts⟩ := layout_of_sameButOrder same single built
    cases also.symm.trans once
    have tree := isTree_of_build built
    have grove := isTree_of_build also
    obtain ⟨twin, alike⟩ := exists_twins tree grove layouts registry after
    refine ⟨twin, fun id => ⟨alike id, ?_⟩⟩
    refine tree.filtersOf_of_layout grove (fun shown => layouts ▸ shown) (node_of_node? · registry)
      (node_of_node? · after) (node?_of_lt id.isLt registry) (node?_of_lt (twin id).isLt after) ?_
    rw [← Node.path_unnumbered, alike, Node.path_unnumbered]

def garden : Catalog :=
  (Catalog.empty.withResource (((Declaration.module "bed").withNested
    ((Declaration.resource "rose").withVersion "2")).withNested (.resource "tulip"))).withResource
    (.resource "shed")

def gardenTurned : Catalog :=
  (Catalog.empty.withResource (.resource "shed")).withResource
    (((Declaration.module "bed").withNested (.resource "tulip")).withNested
      ((Declaration.resource "rose").withVersion "2"))

theorem build_of_sameButOrder_garden :
    SameButOrder garden gardenTurned ∧ Declaration.SinglyNamed garden.resources ∧
    ∃ library other, build (.ofRoot ⟨"/"⟩) "now" .none garden = .ok library ∧
      build (.ofRoot ⟨"/"⟩) "now" .none gardenTurned = .ok other ∧
      (library.node .empty 1).path = ⟨["bed"]⟩ ∧ (other.node .empty 1).path = ⟨["shed"]⟩ ∧
      ∃ twin : Fin library.frozen.size ≃ Fin other.frozen.size, ∀ id,
        (other.node .empty (twin id)).unnumbered = (library.node .empty id).unnumbered := by
  have same : SameButOrder garden gardenTurned :=
    ⟨rfl, rfl, .trans (.cons _ (.of_perm (.swap _ _ _)) (.refl _)) (.of_perm (.swap _ _ _))⟩
  have single : Declaration.SinglyNamed garden.resources := by
    have leaf : Declaration.SinglyNamed [] := ⟨.nil, by simp⟩
    refine Declaration.singlyNamed_cons_iff.mpr ⟨by decide, ?_, ?_⟩
    · exact Declaration.singlyNamed_cons_iff.mpr ⟨by decide, leaf,
        Declaration.singlyNamed_cons_iff.mpr ⟨by decide, leaf, leaf⟩⟩
    · exact Declaration.singlyNamed_cons_iff.mpr ⟨by decide, leaf, leaf⟩
  obtain ⟨library, built, bed⟩ : ∃ library, build (.ofRoot ⟨"/"⟩) "now" .none garden = .ok library ∧
      (library.node .empty 1).path = ⟨["bed"]⟩ := ⟨_, rfl, rfl⟩
  obtain ⟨other, also, shed⟩ : ∃ other,
      build (.ofRoot ⟨"/"⟩) "now" .none gardenTurned = .ok other ∧
      (other.node .empty 1).path = ⟨["shed"]⟩ := ⟨_, rfl, rfl⟩
  obtain ⟨_, twins⟩ := build_of_sameButOrder (.ofRoot ⟨"/"⟩) "now" .none same single
  obtain ⟨twin, alike⟩ := twins library other built also .empty .empty
  exact ⟨same, single, library, other, built, also, bed, shed, twin, fun id => (alike id).1⟩

end ResourceLibrary.Library
