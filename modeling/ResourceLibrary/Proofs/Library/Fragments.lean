import ResourceLibrary.Library.Building
import ResourceLibrary.Proofs.Arena.Merging

/-!
Modules declared in fragments. A module declaration may be cut into one that keeps the header and a
fragment behind it, at any depth. Main statement: a library is built of the fragments as it is of
the whole declaration, and of imported modules as it is of the same modules declared in front.
-/

namespace ResourceLibrary

structure Header.FragmentOf (header part : Header) : Prop where
  whole : header.isModule = true
  kind : part.kind = header.kind
  name : part.name = header.name
  version : part.version = none
  basedir : part.basedir = none
  products : part.products = []
  dependencies : part.dependencies = []

namespace Header.FragmentOf
variable {header part : Header} (fragment : header.FragmentOf part)
include fragment

theorem isModule : part.isModule = true := by
  rw [Header.isModule, fragment.kind]
  exact fragment.whole

theorem agree_eq (ground : Ground) (above module : Node) :
    part.agree ground above module = .ok () := by
  rw [part.agree_of_bare ground above module fragment.products fragment.dependencies (by
    simp [fragment.version])]
  simp [Header.clash?, fragment.basedir]

end Header.FragmentOf

/-- Declarations of which one, at any depth, is cut into itself and a fragment behind it. -/
inductive Declaration.Parted : List Declaration → List Declaration → Prop
  | here {header part : Header} (first second : List Declaration)
    (fragment : header.FragmentOf part) :
    Parted [⟨header, first ++ second⟩] [⟨header, first⟩, ⟨part, second⟩]
  | inside (header : Header) {nested parts : List Declaration} (cut : Parted nested parts) :
    Parted [⟨header, nested⟩] [⟨header, parts⟩]
  | among (front back : List Declaration) {whole parts : List Declaration}
    (cut : Parted whole parts) : Parted (front ++ whole ++ back) (front ++ parts ++ back)

namespace Declaration

theorem Parted.ne_nil {whole parts : List Declaration} (cut : Parted whole parts) :
    whole ≠ [] ∧ parts ≠ [] := by
  induction cut <;> simp_all

theorem admit_congr (parent : Node) (header : Header) {nested other : List Declaration}
    (same : header.isModule = true ∨ nested.isEmpty = other.isEmpty) :
    Declaration.admit parent ⟨header, nested⟩ = Declaration.admit parent ⟨header, other⟩ := by
  unfold Declaration.admit
  rcases same with module | same
  · simp [module]
  · simp [same]

end Declaration

namespace Arena
variable {ground : Ground}

theorem addAll_cons (arena : Arena) (parent : ResourceId) (declaration : Declaration)
    (rest : List Declaration) :
    arena.addAll ground parent (declaration :: rest) =
      (arena.add ground parent declaration).bind fun result =>
        result.2.addAll ground parent rest := by
  rw [addAll]
  rfl

namespace IsTree
variable {arena : Arena} (tree : arena.IsTree)
include tree

/-- A module in one piece is the module with the first part of what it contains, and then a fragment
with the second part. -/
theorem add_append {header part : Header} (fragment : header.FragmentOf part) (parent : ResourceId)
    (first second : List Declaration) :
    arena.add ground parent ⟨header, first ++ second⟩ =
      (arena.add ground parent ⟨header, first⟩).bind fun result =>
        result.2.add ground parent ⟨part, second⟩ := by
  rw [add, add, Declaration.admit_congr _ header (.inl fragment.whole)]
  cases admitted : Declaration.admit (arena.node parent) ⟨header, first⟩ with
  | error failure => rfl
  | ok _ =>
    cases entry : arena.enter ground parent header with
    | error failure => rfl
    | ok result =>
      obtain ⟨id, entered⟩ := result
      simp only [bind, Except.bind]
      rw [addAll_append]
      cases below : entered.addAll ground id first with
      | error failure => rfl
      | ok grown =>
        have added := add_eq_ok_iff.mpr ⟨admitted, entered, entry, below⟩
        obtain ⟨above, module, standing, _⟩ := tree.standing_of_add fragment.whole added
        rw [← fragment.name] at standing
        simp only [Except.bind]
        rw [standing.add_eq fragment.isModule, fragment.agree_eq]
        rfl

/-- Declarations in fragments make of an arena what the whole ones make of it. -/
theorem addAll_of_parted {whole parts : List Declaration} (cut : Declaration.Parted whole parts)
    (parent : ResourceId) :
    arena.addAll ground parent parts = arena.addAll ground parent whole := by
  induction cut generalizing arena parent with
  | here first second fragment =>
    simp only [addAll_cons]
    rw [tree.add_append fragment]
    cases arena.add ground parent ⟨_, first⟩ <;> rfl
  | @inside header nested parts cut ih =>
    have same : nested.isEmpty = parts.isEmpty := by
      rw [List.isEmpty_eq_false_iff.mpr cut.ne_nil.1, List.isEmpty_eq_false_iff.mpr cut.ne_nil.2]
    rw [addAll_cons, addAll_cons, add, add, Declaration.admit_congr _ header (.inr same)]
    cases admitted : Declaration.admit (arena.node parent) ⟨header, parts⟩ with
    | error failure => rfl
    | ok _ =>
      cases entry : arena.enter ground parent header with
      | error failure => rfl
      | ok result =>
        obtain ⟨id, entered⟩ := result
        have grove := tree.entered ⟨parent, header, parts, id, admitted, entry⟩
        simp only [bind, Except.bind]
        rw [ih grove]
  | @among front back whole parts cut ih =>
    rw [List.append_assoc, List.append_assoc, addAll_append, addAll_append _ _ _ front]
    cases before : arena.addAll ground parent front with
    | error failure => rfl
    | ok mid =>
      have grove := tree.grown (grown_of_addAll front before)
      simp only [Except.bind]
      rw [addAll_append, addAll_append, ih grove]

end IsTree
end Arena

def Declaration.Fragmented : List Declaration → List Declaration → Prop :=
  Relation.ReflTransGen Declaration.Parted

theorem Declaration.Fragmented.append_left (front : List Declaration)
    {whole parts : List Declaration} (cuts : Fragmented whole parts) :
    Fragmented (front ++ whole) (front ++ parts) := by
  refine cuts.lift (front ++ ·) fun _ _ cut => ?_
  simpa using Parted.among front [] cut

theorem Arena.IsTree.addAll_of_fragmented {ground : Ground} {arena : Arena} (tree : arena.IsTree)
    {whole parts : List Declaration} (cuts : Declaration.Fragmented whole parts)
    (parent : ResourceId) :
    arena.addAll ground parent parts = arena.addAll ground parent whole := by
  induction cuts with
  | refl => rfl
  | tail _ cut ih => rw [tree.addAll_of_parted cut, ih]

def Import.Loads (load : ImportLoader) (entry : Import) (module : Declaration) : Prop :=
  entry.mode = .uri ∧ load entry.value = .ok module ∧ module.header.isModule = true

theorem Import.mapM_load_eq_ok {load : ImportLoader} {imports : List Import}
    {modules : List Declaration} (loaded : List.Forall₂ (Import.Loads load) imports modules) :
    imports.mapM (·.load load) = .ok modules := by
  induction loaded with
  | nil => rfl
  | @cons entry module _ _ loads _ ih =>
    obtain ⟨mode, found, isModule⟩ := loads
    have one : entry.load load = .ok module := by
      rw [Import.load, mode, found]
      simp [bind, Except.bind, isModule]
    rw [List.mapM_cons, one, ih]
    rfl

namespace Library

theorem ofDeclarations_of_fragmented (settings : Settings) (ground : Ground)
    {whole parts : List Declaration} (cuts : Declaration.Fragmented whole parts) :
    ofDeclarations settings ground parts = ofDeclarations settings ground whole := by
  rw [ofDeclarations, ofDeclarations,
    (Arena.isTree_start ground root).addAll_of_fragmented cuts root]

/-- Only the sequence of declarations tells in what is built: not whether a module stands in one
piece or in fragments, and not whether it is imported or declared in front of the resources. -/
theorem build_of_sequence (settings : Settings) (host : Host) (load : ImportLoader)
    (catalog : Catalog) :
    (∀ resources, Declaration.Fragmented catalog.resources resources →
      build settings host load { catalog with resources := resources } =
        build settings host load catalog) ∧
    (∀ modules, List.Forall₂ (Import.Loads load) catalog.imports modules →
      build settings host load catalog =
        build settings host .none
          ⟨[], catalog.properties, modules ++ catalog.resources⟩) := by
  constructor
  · intro resources cuts
    simp only [build]
    cases catalog.imports.mapM (·.load load) with
    | error failure => rfl
    | ok imported => exact ofDeclarations_of_fragmented _ _ (cuts.append_left imported)
  · intro modules loaded
    exact build_of_imports settings host load catalog (Import.mapM_load_eq_ok loaded)

def meadow : Catalog :=
  (Catalog.empty.withImport ⟨.uri, "file:shed"⟩).withResource
    ⟨.of .module "meadow", [⟨.of .module "orchard", [.resource "apple"] ++ [.resource "pear"]⟩]⟩

def meadowInFragments : List Declaration :=
  [⟨.of .module "meadow", [⟨.of .module "orchard", [.resource "apple"]⟩,
    (Declaration.module "orchard").withProperty "soil" "loam" |>.withNested (.resource "pear")]⟩]

theorem build_of_sequence_meadow :
    let load := ImportLoader.ofTable (.ofList [("file:shed", .module "shed")])
    let fragments := { meadow with resources := meadowInFragments }
    build (.ofRoot ⟨"/"⟩) "now" load fragments = build (.ofRoot ⟨"/"⟩) "now" load meadow ∧
      build (.ofRoot ⟨"/"⟩) "now" load meadow =
        build (.ofRoot ⟨"/"⟩) "now" .none ⟨[], ∅, [.module "shed"] ++ meadow.resources⟩ ∧
      ∃ library, build (.ofRoot ⟨"/"⟩) "now" load meadow = .ok library ∧
        library.frozen.size = 6 := by
  intro load fragments
  obtain ⟨cut, imported⟩ := build_of_sequence (.ofRoot ⟨"/"⟩) "now" load meadow
  have loaded : List.Forall₂ (Import.Loads load) meadow.imports [.module "shed"] :=
    .cons ⟨rfl, rfl, rfl⟩ .nil
  have fragment : (Header.of .module "orchard").FragmentOf
      ((Declaration.module "orchard").withProperty "soil" "loam").header := by
    constructor <;> rfl
  refine ⟨cut _ (.single ?_), imported _ loaded, _, rfl, rfl⟩
  exact .inside _ (.here [.resource "apple"] [.resource "pear"] fragment)

end Library
end ResourceLibrary
