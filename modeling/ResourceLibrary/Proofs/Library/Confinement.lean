import ResourceLibrary.Proofs.Library.Choice
import ResourceLibrary.Proofs.Text.Segments

/-!
What criteria select lies below what their first token stands for. Main statement: with a leading
token in which no two stars stand in a row, and with no other but two stars alone, every selection
stays at or below the child modules that the token stands for.
-/

namespace ResourceLibrary
open Registry (Grows Reached)

theorem Glob.tokens_lead {token rest : String} (single : '/' ∉ token.toList)
    (further : ∃ part ∈ Text.split '/' rest, part ≠ "") :
    ∃ next others, tokens rest = next :: others ∧
      tokens (token ++ "/" ++ rest) = token :: next :: others := by
  obtain ⟨part, member, full⟩ := further
  have written : rest ≠ "" := by
    rintro rfl
    exact full (List.mem_singleton.mp member)
  obtain ⟨clear, last, empties, joined⟩ := (tokens_eq_iff written).mp rfl
  cases listed : tokens rest with
  | nil =>
    rw [tokens_eq_rdropWhile written, List.rdropWhile_eq_nil_iff] at listed
    exact absurd (eq_of_beq (listed part member)) full
  | cons next others =>
    rw [listed] at clear last joined
    refine ⟨next, others, rfl, (tokens_eq_iff (by simp)).mpr ⟨?_, ?_, empties, ?_⟩⟩
    · exact List.forall_mem_cons.mpr ⟨single, clear⟩
    · rwa [List.getLast?_cons_cons]
    · rw [joined]
      exact (String.intercalate_cons_cons ..).symm

def Confined (nodes : ResourceId → Node) (token : String) (outer inner : ResourceId) : Prop :=
  ∃ child, ModuleBelow nodes outer child ∧ Fits token (nodes child).name ∧
    AtOrBelow nodes child inner

namespace Query
variable {library : Library} (tree : library.arena.IsTree) {start grown : Registry}
  (reached : Reached library start)
include tree reached

theorem exists_chooses_of_selectTokens {token next : String} {rest : List String} {deep : Bool}
    {id : ResourceId} {ids : List ResourceId} (known : id < start.next library)
    (shallow : Glob.isDeep token = false)
    (given : (selectTokens deep id (token :: next :: rest)).answer library start =
      (.ok ids, grown)) :
    ∀ inner ∈ ids, ∃ module, Chooses (library.node start) token id module ∧
      AtOrBelow (library.node start) module inner := by
  intro inner member
  rcases cases_of_mem_selectTokens tree reached .refl known given member with
    ⟨module, list, _, _, chose, grows, asked, inList⟩ | ⟨stars, _⟩
  · exact ⟨module, chose, (atOrBelow_of_selectTokens tree reached grows
      (known_of_chooses known chose) asked).2 inner inList⟩
  · rw [shallow] at stars
    cases stars

variable {token rest : String} (single : '/' ∉ token.toList)
  (further : ∃ part ∈ Text.split '/' rest, part ≠ "")
include single further

theorem confined_of_select {onlyLocal sorted : Bool} {id : ResourceId} {ids : List ResourceId}
    (known : id < start.next library) (shallow : Glob.isDeep token = false)
    (given : (select id (token ++ "/" ++ rest) onlyLocal sorted).answer library start =
      (.ok ids, grown)) :
    ∀ inner ∈ ids, Confined (library.node start) token id inner := by
  obtain ⟨all, middle, asked, inside⟩ := subset_of_select tree reached known given
  obtain ⟨next, others, _, tokens⟩ := Glob.tokens_lead single further
  rw [tokens] at asked
  have plain : token ≠ "**" := by
    rintro rfl
    exact absurd shallow (by decide)
  intro inner member
  obtain ⟨module, chosen, below⟩ :=
    exists_chooses_of_selectTokens tree reached known shallow asked inner (inside member)
  rw [Chooses, if_neg plain] at chosen
  exact ⟨module, chosen.1, chosen.2, below⟩

end Query

namespace Query
variable {library : Library} {registry grown : Registry} {id : ResourceId}

theorem answer_arranged_singleton (library : Library) (registry : Registry) (id : ResourceId)
    (scope : Scope) : (arranged [id] scope false).answer library registry = (.ok [id], registry) := by
  rw [arranged, if_neg Bool.false_ne_true, answer_bind, answer_nodes]
  simp only [List.mergeSort_singleton]
  rfl

/-- Where there is no child module to go on with, a token with two stars among others searches for
what follows it right where it is. -/
theorem answer_selectTokens_of_isDeep {token next : String} {rest : List String} (deep : Bool)
    {ids : List ResourceId} (plain : token ≠ "**") (stars : Glob.isDeep token = true)
    (alone : childModules (library.node registry) (library.node registry id) = [])
    (own : (selectTokens true id (next :: rest)).answer library registry = (.ok ids, grown)) :
    (selectTokens deep id (token :: next :: rest)).answer library registry =
      (.ok (distinct ids), grown) := by
  have none : (selectModules id token).answer library registry = (.ok [], registry) := by
    rw [selectModules, answer_bind, answer_nodes]
    simp only [if_neg plain, alone, List.filter_nil, ite_self]
    rfl
  rw [selectTokens]
  refine answer_bind_eq_ok_iff.mpr ⟨[], registry, none, ?_⟩
  refine answer_bind_eq_ok_iff.mpr ⟨[], registry, rfl, ?_⟩
  rw [if_pos stars]
  exact answer_bind_eq_ok_iff.mpr ⟨ids, grown, own, rfl⟩

end Query

namespace Library

def lone : Catalog := Catalog.empty.withResource (Declaration.resource "api")

/-- With two stars in a row among others, a token also finds what is no part of a child module. -/
theorem not_confined_of_isDeep {token : String} (leads : '/' ∉ token.toList)
    (plain : token ≠ "**") (stars : Glob.isDeep token = true) :
    ∃ library, build (.ofRoot ⟨"/"⟩) "now" .none lone = .ok library ∧
      (Query.select root (token ++ "/" ++ "api") false false).answer library .empty =
        (.ok [1], .empty) ∧
      ¬Confined (library.node .empty) token root 1 := by
  obtain ⟨library, built, alone, own⟩ : ∃ library,
      build (.ofRoot ⟨"/"⟩) "now" .none lone = .ok library ∧
      childModules (library.node .empty) (library.node .empty root) = [] ∧
      (Query.selectTokens true root ["api"]).answer library .empty = (.ok [1], .empty) :=
    ⟨_, rfl, rfl, rfl⟩
  refine ⟨library, built, ?_, ?_⟩
  · have further : ∃ part ∈ Text.split '/' "api", part ≠ "" := ⟨"api", by decide, by decide⟩
    obtain ⟨next, others, listed, tokens⟩ := Glob.tokens_lead leads further
    cases listed.symm.trans (by decide : Glob.tokens "api" = ["api"])
    have found := Query.answer_selectTokens_of_isDeep false plain stars alone own
    rw [← tokens] at found
    exact Query.answer_bind_eq_ok_iff.mpr ⟨[1], .empty,
      Query.answer_bind_eq_ok_iff.mpr ⟨[1], .empty, found, rfl⟩,
      Query.answer_arranged_singleton library .empty 1 .test⟩
  · rintro ⟨child, ⟨up, module⟩, _⟩
    have tree := isTree_of_build built
    have known : root < Registry.empty.next library := Nat.lt_add_right _ (size_pos_of_isTree tree)
    have listed : child ∈ childModules (library.node .empty) (library.node .empty root) :=
      List.mem_filter.mpr ⟨(mem_children_iff tree .refl known).mpr up, module⟩
    rw [alone] at listed
    cases listed

/-- A leading token keeps selections below the child modules that it stands for, in every library
and whatever follows it, exactly if no two stars stand in a row in it. Two stars alone are not meant
to. -/
theorem confined_iff {token : String} (leads : '/' ∉ token.toList) (plain : token ≠ "**") :
    ¬['*', '*'] <:+: token.toList ↔
      ∀ settings host load catalog library,
        build settings host load catalog = .ok library →
      ∀ session module, module < (library.after session).next library →
      ∀ rest, (∃ part ∈ Text.split '/' rest, part ≠ "") →
      ∀ onlyLocal sorted found grown,
        (Query.select module (token ++ "/" ++ rest) onlyLocal sorted).answer library
          (library.after session) = (.ok found, grown) →
      ∀ id ∈ found, Confined (library.node (library.after session)) token module id := by
  rw [← Text.holdsPair_iff, Bool.not_eq_true]
  constructor
  · intro shallow _ _ _ _ library built session module known rest further _ _ _ _ given
    exact Query.confined_of_select (isTree_of_build built) (library.reached_after session) leads
      further known shallow given
  · intro confined
    by_contra deep
    obtain ⟨library, built, given, away⟩ :=
      not_confined_of_isDeep leads plain ((Bool.not_eq_false _).mp deep)
    have known : root < Registry.empty.next library :=
      Nat.lt_add_right _ (size_pos_of_isTree (isTree_of_build built))
    exact away (confined _ _ _ _ library built [] root known "api" ⟨"api", by decide, by decide⟩ _ _
      _ _ given 1 (List.mem_singleton_self 1))

def apps : Catalog :=
  (Catalog.empty.withResource
    ((Declaration.module "app-core").withNested (Declaration.resource "main"))).withResource
    ((Declaration.module "util").withNested (Declaration.resource "main"))

theorem confined_iff_apps :
    ∃ library, build (.ofRoot ⟨"/"⟩) "now" .none apps = .ok library ∧
      (Query.select root "app*/*" false false).answer library .empty = (.ok [2], .empty) ∧
      Confined (library.node .empty) "app*" root 2 := by
  obtain ⟨library, built, frozen, found⟩ : ∃ library,
      build (.ofRoot ⟨"/"⟩) "now" .none apps = .ok library ∧ library.frozen.size = 5 ∧
      (Query.selectIds root "app*/*" false).answer library .empty = (.ok [2], .empty) :=
    ⟨_, rfl, rfl, rfl⟩
  have given : (Query.select root ("app*" ++ "/" ++ "*") false false).answer library .empty =
      (.ok [2], .empty) := Query.answer_bind_eq_ok_iff.mpr
    ⟨[2], .empty, found, Query.answer_arranged_singleton library .empty 2 .test⟩
  have known : root < (library.after []).next library := Nat.lt_add_right _ (by simp [frozen, root])
  exact ⟨library, built, given, (confined_iff (by decide) (by decide)).mp (by decide) _ _ _ _
    library built [] root known "*" ⟨"*", by decide, by decide⟩ _ _ _ _ given 2 (by decide)⟩

/-- Two stars after a name reach what stands beside the modules. -/
theorem not_confined_api :
    ∃ library, build (.ofRoot ⟨"/"⟩) "now" .none lone = .ok library ∧
      (Query.select root "app**/api" false false).answer library .empty = (.ok [1], .empty) ∧
      ¬Confined (library.node .empty) "app**" root 1 := by
  obtain ⟨library, built, given, away⟩ :=
    not_confined_of_isDeep (by decide) (by decide) (by decide : Glob.isDeep "app**" = true)
  exact ⟨library, built, given, away⟩

end Library
end ResourceLibrary
