import ResourceLibrary.Proofs.Library.Consumers
import ResourceLibrary.Proofs.Library.Numbering

/-!
Searches. References, selections and queries for consumers find frozen resources only, whatever was
registered. Main statement: what a search from a frozen node finds is frozen.
-/

namespace ResourceLibrary
open Registry (Grows Reached)

def Request.Searches (library : Library) : Request → Prop
  | resource start _ | module start _ | allModules start | select start _ _ _ | locate start _ =>
    start < library.frozen.size
  | selectBasedir _ _ | consumers _ _ _ => True
  | _ => False

theorem Query.answer_return_eq_ok_iff {α β : Type} {query : Query α} {wrap : α → β} {value : β}
    {library : Library} {registry grown : Registry} :
    (do return wrap (← query)).answer library registry = (.ok value, grown) ↔
      ∃ found, query.answer library registry = (.ok found, grown) ∧ wrap found = value := by
  rw [answer_bind_eq_ok_iff]
  constructor
  · rintro ⟨found, _, asked, done⟩
    cases done
    exact ⟨found, asked, rfl⟩
  · rintro ⟨found, asked, rfl⟩
    exact ⟨found, grown, asked, rfl⟩

section
variable {library : Library} (tree : library.arena.IsTree) {registry grown : Registry}
  (reached : Reached library registry)
include tree reached

namespace Query
variable {id : ResourceId} (frozen : id < library.frozen.size)
include frozen

theorem frozen_of_selectTokens {tokens : List String} {deep : Bool} {ids : List ResourceId}
    (given : (selectTokens deep id tokens).answer library registry = (.ok ids, grown)) :
    ids.Nodup ∧ ∀ inner ∈ ids, inner < library.frozen.size := by
  have known := Nat.lt_add_right registry.nodes.size frozen
  obtain ⟨single, below⟩ := atOrBelow_of_selectTokens tree reached .refl known given
  exact ⟨single, fun inner member => Library.inner_lt_frozen_of_atOrBelow tree reached frozen
    (below inner member)⟩

theorem frozen_of_selectIds {criteria : String} {onlyLocal : Bool} {ids : List ResourceId}
    (given : (selectIds id criteria onlyLocal).answer library registry = (.ok ids, grown)) :
    ids.Nodup ∧ ∀ inner ∈ ids, inner < library.frozen.size := by
  obtain ⟨found, _, asked, done⟩ := answer_bind_eq_ok_iff.mp given
  obtain ⟨single, inside⟩ := frozen_of_selectTokens tree reached frozen asked
  cases done
  cases onlyLocal with
  | false => exact ⟨single, inside⟩
  | true => exact ⟨single.filter _, fun inner member => inside inner (List.mem_filter.mp member).1⟩

theorem frozen_of_select {criteria : String} {onlyLocal sorted : Bool} {ids : List ResourceId}
    (given : (select id criteria onlyLocal sorted).answer library registry = (.ok ids, grown)) :
    ∀ inner ∈ ids, inner < library.frozen.size := by
  have known := Nat.lt_add_right registry.nodes.size frozen
  obtain ⟨all, _, asked, inside⟩ := subset_of_select tree reached known given
  have bound := (frozen_of_selectTokens tree reached frozen asked).2
  exact fun inner member => bound inner (inside member)

theorem frozen_of_allModules {ids : List ResourceId}
    (given : (allModules id false).answer library registry = (.ok ids, grown)) :
    ∀ inner ∈ ids, inner < library.frozen.size := by
  have known := Nat.lt_add_right registry.nodes.size frozen
  have inside : ∀ inner ∈ modulesBelow (library.node registry) (registry.next library + 1) id,
      inner < library.frozen.size := fun inner member =>
    Library.inner_lt_frozen_of_atOrBelow tree reached frozen (atOrBelow_of_modulesBelow
      ((mem_modulesBelow_iff tree reached .refl known inner).mp member).to_reflTransGen)
  simp only [allModules, answer_bind, answer_nodes, answer_depth] at given
  obtain ⟨_, members⟩ := mem_of_sort tree reached
    (fun inner member => Nat.lt_add_right _ (inside inner member)) given
  exact fun inner member => inside inner ((members inner).mp member)

theorem frozen_of_locate {base : FilePath} {found : ResourceId}
    (given : (locate id base).answer library registry = (.ok found, grown)) :
    found < library.frozen.size := by
  rw [locate, answer_settle_bind] at given
  obtain ⟨ids, middle, chosen, further⟩ := answer_bind_eq_ok_iff.mp given
  rw [answer_bind, answer_nodes] at further
  simp only at further
  split at further
  · next first =>
    cases further
    exact (frozen_of_selectIds tree reached frozen chosen).2 _ (List.mem_of_find?_eq_some first)
  · cases further

theorem frozen_of_resolve {reference : String} {found : ResourceId}
    (done : resolve (library.node registry) id reference = .ok found) :
    found < library.frozen.size := by
  rcases resolve_frozen tree (World.diagonal reached) frozen reference with
    ⟨other, inside, given, _⟩ | ⟨failure, failed, _⟩
  · cases done.symm.trans given
    exact inside
  · cases done.symm.trans failed

theorem frozen_of_resolveModule {reference : String} {found : ResourceId}
    (done : resolveModule (library.node registry) id reference = .ok found) :
    found < library.frozen.size := by
  unfold resolveModule at done
  split at done
  · cases done
  · cases done
  · next other resolved =>
    split at done
    · cases done
      exact frozen_of_resolve tree reached frozen resolved
    · cases done

omit frozen in
theorem frozen_of_selectBasedir {base : FilePath} {includeSelf : Bool} {ids : List ResourceId}
    (given : (selectBasedir base includeSelf).answer library registry = (.ok ids, grown)) :
    ∀ inner ∈ ids, inner < library.frozen.size := by
  rw [selectBasedir, answer_settle_bind] at given
  obtain ⟨found, middle, chosen, further⟩ := answer_bind_eq_ok_iff.mp given
  have top := Library.size_pos_of_isTree tree
  have inside := (frozen_of_selectIds tree reached top chosen).2
  have begun := reached.grows ((growing_selectIds _ _ _).grows chosen)
  rw [answer_bind, answer_nodes] at further
  have kept : ∀ (keep : ResourceId → Bool), ∀ inner ∈ found.filter keep,
      inner < library.frozen.size := fun _ inner member => inside inner (List.mem_filter.mp member).1
  obtain ⟨_, members⟩ := mem_of_sort tree begun
    (fun inner member => Nat.lt_add_right _ (kept _ inner member)) further
  exact fun inner member => kept _ inner ((members inner).mp member)

end Query

theorem Request.lt_frozen_of_searches {request : Request} (searches : request.Searches library)
    {answer : Answer} (given : request.perform.answer library registry = (.ok answer, grown)) :
    ∀ id ∈ answer.ids, id < library.frozen.size := by
  cases request
  case resource start reference =>
    obtain ⟨found, done, rfl, _⟩ :=
      Query.found_of_answer (Query.answer_lookup start reference library registry) given
    simpa [Answer.ids] using Query.frozen_of_resolve tree reached searches done
  case module start reference =>
    obtain ⟨found, done, rfl, _⟩ :=
      Query.found_of_answer (Query.answer_lookupModule start reference library registry) given
    simpa [Answer.ids] using Query.frozen_of_resolveModule tree reached searches done
  case allModules start =>
    obtain ⟨ids, asked, rfl⟩ := Query.answer_return_eq_ok_iff.mp given
    exact Query.frozen_of_allModules tree reached searches asked
  case select start criteria onlyLocal sorted =>
    obtain ⟨ids, asked, rfl⟩ := Query.answer_return_eq_ok_iff.mp given
    exact Query.frozen_of_select tree reached searches asked
  case locate start base =>
    obtain ⟨found, asked, rfl⟩ := Query.answer_return_eq_ok_iff.mp given
    simpa [Answer.ids] using Query.frozen_of_locate tree reached searches asked
  case selectBasedir base includeSelf =>
    obtain ⟨ids, asked, rfl⟩ := Query.answer_return_eq_ok_iff.mp given
    exact Query.frozen_of_selectBasedir tree reached asked
  case consumers id expand sorted =>
    obtain ⟨ids, asked, rfl⟩ := Query.answer_return_eq_ok_iff.mp given
    obtain ⟨_, _, members⟩ := Query.mem_of_consumers tree reached asked
    exact fun consumer member => ((members grown .refl consumer).mp member).1
  all_goals exact searches.elim

end
end ResourceLibrary
