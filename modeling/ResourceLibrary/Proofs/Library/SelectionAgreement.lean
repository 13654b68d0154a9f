import Mathlib.Data.List.Perm.Basic
import ResourceLibrary.Proofs.Library.OrderAgreement
import ResourceLibrary.Proofs.Library.PathOrder

/-!
Selections and what a resource is asked for, in two registries. Main statements: each query that
lists resources lists resources that correspond, in the same order where it sorts them by
dependencies and in the same order of paths where it does not.
-/

namespace ResourceLibrary
open Registry (Grows Reached Within)

namespace World
variable {library : Library}

/-- Lists that correspond; one that is in path order alone may have resources of one path in another
order. -/
def Arranged (rel : World library → ResourceId → ResourceId → Prop) (sorted : Bool)
    (world : World library) (xs ys : List ResourceId) : Prop :=
  if sorted then List.Forall₂ (rel world) xs ys
  else (∃ zs, List.Forall₂ (rel world) xs zs ∧ zs.Perm ys) ∧
    xs.map (fun id => (library.node world.left id).path) =
      ys.map fun id => (library.node world.right id).path

end World

namespace Query
open World
variable {library : Library} {world base : World library} {i j : ResourceId}
  (tree : library.arena.IsTree)
include tree

theorem forall₂_accepts (since : base.Later world) {xs ys : List ResourceId}
    (listed : List.Forall₂ base.Same xs ys) (token : String) :
    List.Forall₂ base.Same
      (xs.filter fun id => Glob.accepts token.toList (library.node world.left id).name.toList)
      (ys.filter fun id => Glob.accepts token.toList (library.node world.right id).name.toList) := by
  refine forall₂_filter ?_ listed
  intro x y same
  rw [(same.alike_later tree since).name]

theorem agree_selectModules (since : base.Later world) (same : base.Same i j) (token : String) :
    Agree world (fun _ => List.Forall₂ base.Same) (selectModules i token)
      (selectModules j token) := by
  apply agree_nodes_bind
  have alike := same.alike_later tree since
  have modules := forall₂_childModules tree since alike.children
  simp only
  rw [← alike.isRoot]
  split
  · exact agree_allModules tree since same _
  · split
    · exact agree_pure modules
    · exact agree_pure (forall₂_accepts tree since modules token)

theorem agree_selectLast (since : base.Later world) (same : base.Same i j) (deep : Bool)
    (token : String) :
    Agree world (fun _ => List.Forall₂ base.Same) (selectLast deep i token)
      (selectLast deep j token) := by
  apply agree_nodes_bind
  have alike := same.alike_later tree since
  simp only
  rw [← alike.isRoot]
  split
  · exact agree_allModules tree since same _
  · split
    · refine agree_pure (List.rel_append alike.children ?_)
      split
      · exact .cons same .nil
      · exact .nil
    · exact agree_pure (forall₂_accepts tree since alike.children token)

theorem agree_selectTokens (since : base.Later world) (same : base.Same i j) (deep : Bool)
    (tokens : List String) :
    Agree world (fun _ => List.Forall₂ base.Same) (selectTokens deep i tokens)
      (selectTokens deep j tokens) := by
  induction tokens generalizing world i j deep with
  | nil => exact agree_pure .nil
  | cons token rest ih =>
    cases rest with
    | nil => exact agree_selectLast tree since same deep token
    | cons next further =>
      apply agree_bind (agree_selectModules tree since same token)
      intro later after modules others listed
      have reached := since.trans after
      have inner : Agree later (fun _ => List.Forall₂ (List.Forall₂ base.Same))
          (modules.mapM fun module =>
            selectTokens (Glob.isDeep token) module (next :: further))
          (others.mapM fun module =>
            selectTokens (Glob.isDeep token) module (next :: further)) := by
        refine agree_mapM (fun _ _ _ _ _ related => related) ?_ listed
        intro last onward x y below
        exact ih (reached.trans onward) below _
      apply agree_bind inner
      intro last onward below found both
      have joined := List.rel_flatten both
      simp only
      split
      · apply agree_bind (ih (reached.trans onward) same true)
        intro _ _ here there related
        exact agree_pure (forall₂_distinct base.biUnique_same (List.rel_append joined related))
      · have nothing : Agree last (fun _ => List.Forall₂ base.Same) (pure []) (pure []) :=
          agree_pure .nil
        apply agree_bind nothing
        intro _ _ here there related
        exact agree_pure (forall₂_distinct base.biUnique_same (List.rel_append joined related))

theorem agree_selectIds (since : base.Later world) (same : base.Same i j) (criteria : String)
    (onlyLocal : Bool) :
    Agree world (fun _ => List.Forall₂ base.Same) (selectIds i criteria onlyLocal)
      (selectIds j criteria onlyLocal) := by
  apply agree_bind (agree_selectTokens tree since same false _)
  intro later after found others related
  refine agree_nodes_bind (agree_pure ?_)
  split
  · refine forall₂_filter ?_ related
    intro x y below
    rw [(below.alike_later tree (since.trans after)).basedir]
  · exact related

theorem agree_arranged {rel : ResourceId → ResourceId → Prop}
    (inside : ∀ i j, rel i j → world.Same i j) {xs ys : List ResourceId}
    (listed : List.Forall₂ rel xs ys) (scope : Scope) (sorted : Bool) :
    Agree world (Arranged (fun _ => rel) sorted) (arranged xs scope sorted)
      (arranged ys scope sorted) := by
  cases sorted with
  | true => exact agree_sort tree inside listed scope false
  | false =>
    refine agree_nodes_bind (agree_pure ?_)
    obtain ⟨zs, related, same⟩ :=
      List.perm_comp_forall₂ (List.mergeSort_perm xs fun a b =>
        pathOrder (library.node world.left a) (library.node world.left b)) listed
    refine ⟨⟨zs, related, same.trans (List.mergeSort_perm _ _).symm⟩, paths_mergeSort ?_⟩
    rw [← List.forall₂_eq_eq_eq]
    refine List.rel_map ?_ listed
    intro x y below
    exact ((inside x y below).alike tree).path

theorem agree_arranged_near (since : base.Later world) {xs ys : List ResourceId}
    (listed : List.Forall₂ (base.Near world) xs ys) (scope : Scope) (sorted : Bool) :
    Agree world (Arranged base.Near sorted) (arranged xs scope sorted)
      (arranged ys scope sorted) := by
  apply (agree_arranged tree (fun _ _ near => Near.same since near) listed scope sorted).imp
  intro later after as bs both
  cases sorted with
  | true => exact both.imp fun _ _ near => lasting_near base after near
  | false =>
    obtain ⟨⟨zs, related, same⟩, paths⟩ := both
    exact ⟨⟨zs, related.imp fun _ _ near => lasting_near base after near, same⟩, paths⟩

theorem agree_select (since : base.Later world) (same : base.Same i j) (criteria : String)
    (onlyLocal sorted : Bool) :
    Agree world (Arranged base.Near sorted) (select i criteria onlyLocal sorted)
      (select j criteria onlyLocal sorted) := by
  apply agree_bind (agree_selectIds tree since same criteria onlyLocal)
  intro later after found others related
  exact agree_arranged_near tree (since.trans after) (related.imp fun _ _ => .inl) _ sorted

theorem agree_providers (since : base.Later world) (near : base.Near world i j) (scope : Scope)
    (expand sorted : Bool) :
    Agree world (Arranged base.Near sorted) (providers i scope expand sorted)
      (providers j scope expand sorted) := by
  apply agree_bind (agree_tierProviders tree since near scope expand none)
  intro later after found others related
  exact agree_arranged_near tree (since.trans after) related scope sorted

theorem agree_allProviders (since : base.Later world) (near : base.Near world i j) (scope : Scope)
    (expand sorted : Bool) :
    Agree world (Arranged base.Near sorted) (allProviders i scope expand sorted)
      (allProviders j scope expand sorted) := by
  apply agree_bind (agree_aggregatedProviders tree since near scope expand true)
  intro later after found others related
  exact agree_arranged_near tree (since.trans after) related scope sorted

theorem agree_sort_near (since : base.Later world) {xs ys : List ResourceId}
    (listed : List.Forall₂ (base.Near world) xs ys) (scope : Scope) (strict : Bool) :
    Agree world (fun later => List.Forall₂ (base.Near later)) (sort xs scope strict)
      (sort ys scope strict) := by
  apply (agree_sort tree (fun _ _ near => Near.same since near) listed scope strict).imp
  exact fun later after as bs both => both.imp fun _ _ near => lasting_near base after near

theorem agree_classpath (since : base.Later world) (near : base.Near world i j) (scope : Scope) :
    Agree world (fun later => List.Forall₂ (base.Near later)) (classpath i scope)
      (classpath j scope) := by
  apply agree_bind (agree_aggregatedProviders tree since near scope true false)
  intro later after found others related
  apply agree_bind (agree_sort_near tree (since.trans after) related scope false)
  intro last onward sorted ordered both
  refine agree_nodes_bind (agree_pure (forall₂_filter ?_ both))
  intro x y below
  rw [(below.alike tree (since.trans (after.trans onward))).produces]

theorem agree_categoryClasspath (since : base.Later world) (near : base.Near world i j)
    (category : Category) :
    Agree world (fun later => List.Forall₂ (base.Near later)) (categoryClasspath i category)
      (categoryClasspath j category) := by
  have lower : Agree world (fun later => List.Forall₂ (List.Forall₂ (base.Near later)))
      (category.lowerTiers.mapM fun tier => tierProviders i .runtime true (some tier))
      (category.lowerTiers.mapM fun tier => tierProviders j .runtime true (some tier)) := by
    refine agree_mapM (lasting_forall₂ (lasting_near base)) ?_
      (List.forall₂_same.mpr fun _ _ => rfl)
    rintro later after tier _ rfl
    exact agree_tierProviders tree (since.trans after) (lasting_near base after near) _ _ _
  apply agree_bind lower
  intro middle after below others barred
  have reached := since.trans after
  apply agree_bind (agree_tierProviders tree reached (lasting_near base after near) _ _ _)
  intro later onward found more related
  have total := reached.trans onward
  have excluded := lasting_forall₂ (lasting_near base) onward (List.rel_flatten barred)
  refine agree_nodes_bind (agree_sort_near tree total (forall₂_filter ?_ related) _ _)
  intro x y below
  have member : x ∈ _ ↔ y ∈ _ := List.rel_mem (biUnique_near total) below excluded
  simp [(below.alike tree total).produces, member]

def SameEntry (base world : World library) (left right : ResourceId × List ResourceId) : Prop :=
  base.Same left.1 right.1 ∧ List.Forall₂ (base.Near world) left.2 right.2

theorem agree_provided (since : base.Later world) :
    Agree world (fun later => List.Forall₂ (SameEntry base later)) provided provided := by
  have root := base.same_of_lt (Library.size_pos_of_isTree tree)
  apply agree_bind (agree_selectIds tree since root everything false)
  intro later after candidates others listed
  refine agree_mapM ?_ ?_ listed
  · intro world later left right since entry
    exact ⟨entry.1, lasting_forall₂ (lasting_near base) since entry.2⟩
  · intro last onward x y same
    apply agree_bind
      (agree_aggregated tree (since.trans (after.trans onward)) (.inl same) .test true)
    intro _ _ found more related
    exact agree_pure ⟨same, related.1⟩

omit tree in
theorem forall₂_directConsumers (since : base.Later world)
    {table other : List (ResourceId × List ResourceId)}
    (same : List.Forall₂ (SameEntry base world) table other) (near : base.Near world i j) :
    List.Forall₂ base.Same (directConsumers table i) (directConsumers other j) := by
  refine List.rel_map (fun _ _ entry => entry.1) (forall₂_filter ?_ same)
  intro left right entry
  have both : i ∈ left.2 ↔ j ∈ right.2 := List.rel_mem (biUnique_near since) near entry.2
  simp [both]

theorem agree_consumers (since : base.Later world) (near : base.Near world i j)
    (expand sorted : Bool) :
    Agree world (Arranged base.Near sorted) (consumers i expand sorted)
      (consumers j expand sorted) := by
  apply agree_bind (agree_provided tree since)
  intro later after table other same
  have reached := since.trans after
  have direct := forall₂_directConsumers reached same (lasting_near base after near)
  simp only
  split
  · apply agree_depth_bind
    have walked : Agree later (fun _ => List.Forall₂ base.Same)
        (Walk.preOrder (later.left.next library + 1)
          (fun node => pure (directConsumers table node)) (directConsumers table i))
        (Walk.preOrder (later.right.next library + 1)
          (fun node => pure (directConsumers other node)) (directConsumers other j)) := by
      refine agree_preOrder (fun _ _ _ _ _ related => related) (fun _ _ => base.biUnique_same) ?_
        direct
      intro last onward x y related
      exact agree_pure ⟨forall₂_directConsumers reached same (.inl related),
        fun _ => (lasting_same reached related).lt_next⟩
    apply agree_bind walked
    intro last onward found others related
    exact agree_arranged_near tree (reached.trans onward) (related.imp fun _ _ => .inl) _ sorted
  · have given : Agree later (fun _ => List.Forall₂ base.Same) (pure (directConsumers table i))
        (pure (directConsumers other j)) := agree_pure direct
    apply agree_bind given
    intro last onward found others related
    exact agree_arranged_near tree (reached.trans onward) (related.imp fun _ _ => .inl) _ sorted

theorem agree_selectBasedir (since : base.Later world) (place : FilePath) (includeSelf : Bool) :
    Agree world (fun later => List.Forall₂ (base.Near later)) (selectBasedir place includeSelf)
      (selectBasedir place includeSelf) := by
  have root := base.same_of_lt (Library.size_pos_of_isTree tree)
  apply agree_settle_bind
  apply agree_bind (agree_selectIds tree since root everything true)
  intro later after found others related
  have reached := since.trans after
  refine agree_nodes_bind (agree_sort_near tree reached ?_ _ _)
  refine forall₂_filter ?_ (related.imp fun _ _ => .inl)
  intro x y below
  rw [(below.alike tree reached).basedir]

theorem agree_locate (since : base.Later world) (same : base.Same i j) (place : FilePath) :
    Agree world base.Near (locate i place) (locate j place) := by
  apply agree_settle_bind
  apply agree_bind (agree_selectIds tree since same everything true)
  intro later after found others related
  have reached := since.trans after
  apply agree_nodes_bind
  have first : ∀ {xs ys : List ResourceId}, List.Forall₂ base.Same xs ys →
      Option.Rel base.Same
        (xs.find? fun id =>
          (library.node later.left id).basedir.any (library.ground.settle place).same)
        (ys.find? fun id =>
          (library.node later.right id).basedir.any (library.ground.settle place).same) := by
    intro xs ys both
    induction both with
    | nil => exact .none
    | cons head _ ih =>
      rw [List.find?_cons, List.find?_cons, (head.alike_later tree reached).basedir]
      split
      · exact .some head
      · exact ih
  rcases option_rel_cases (first related) with ⟨left, right⟩ | ⟨x, y, left, right, below⟩
  · rw [left, right]
    exact agree_throw _
  · rw [left, right]
    exact agree_pure (.inl below)

theorem agree_lookupModule (world : World library) (frozen : i < library.frozen.size)
    (reference : String) :
    Agree world (fun _ i j => i = j ∧ i < library.frozen.size) (lookupModule i reference)
      (lookupModule i reference) := by
  refine agree_nodes_bind (agree_ofExcept ?_)
  unfold resolveModule
  rw [← Library.node_eq_of_lt frozen world.left world.right]
  rcases resolve_frozen tree world frozen reference with
    ⟨found, inside, left, right⟩ | ⟨failure, left, right⟩
  · rw [left, right]
    simp only
    rw [← Library.node_eq_of_lt inside world.left world.right]
    split
    · exact .inl ⟨found, found, rfl, rfl, rfl, inside⟩
    · exact .inr ⟨_, rfl, rfl⟩
  · rw [left, right]
    cases failure <;> exact .inr ⟨_, rfl, rfl⟩

omit tree in
theorem agree_ofExcept_self {α : Type} (world : World library) (result : Except Failure α) :
    Agree world (fun _ => Eq) (ofExcept result) (ofExcept result) := by
  apply agree_ofExcept
  cases result with
  | error failure => exact .inr ⟨failure, rfl, rfl⟩
  | ok value => exact .inl ⟨value, value, rfl, rfl, rfl⟩

theorem agree_artifactReference (world : World library) (reference : String) :
    Agree world (fun _ => Eq) (artifactReference reference) (artifactReference reference) := by
  unfold artifactReference
  simp only
  split
  · apply agree_bind (agree_ofExcept_self world _)
    intro _ _ _ _ _
    exact agree_pure rfl
  · split
    · exact agree_pure rfl
    · apply agree_bind (agree_ofExcept_self world _)
      rintro later _ coordinate _ rfl
      apply agree_bind (agree_lookup tree later (Library.size_pos_of_isTree tree) _)
      rintro last _ target _ ⟨rfl, frozen⟩
      apply agree_node_bind
      rw [← Library.node_eq_of_lt frozen last.left last.right]
      apply agree_bind (agree_ofExcept_self last _)
      rintro _ _ product _ rfl
      exact agree_pure rfl

end Query
end ResourceLibrary
