import Mathlib.Data.List.Perm.Basic
import ResourceLibrary.Proofs.Library.Repetition

/-!
Sorts that were answered. Main statements: a sort lists its candidates, each once; a strict one that
succeeds puts each candidate behind everything that it depends on; and resources that were found are
arranged without losing any or adding any.
-/

namespace ResourceLibrary.Query
open Registry (Grows Reached)

def Listed (candidates : List ResourceId) {library : Library} (_ : World library)
    (i j : ResourceId) : Prop :=
  i = j ∧ i ∈ candidates

variable {library : Library} (tree : library.arena.IsTree) {start grown : Registry}
  (reached : Reached library start)

section
include reached

theorem itself_of_lt {id : ResourceId} (known : id < start.next library) :
    Itself library (World.diagonal reached).Near start id :=
  ⟨reached, .inl (World.diagonal_same reached known)⟩

theorem lt_next_of_itself {after : Registry} (since : Grows library start after)
    {id : ResourceId} (itself : Itself library (World.diagonal reached).Near after id) :
    id < after.next library := by
  obtain ⟨here, near⟩ := itself
  exact (near.same ⟨since, since⟩).lt_next.1

theorem steady_of_found {next : ResourceId → Query (List ResourceId)}
    (growing : ∀ id, Growing (next id))
    (agree : ∀ world, (World.diagonal reached).Later world → ∀ i j,
      (World.diagonal reached).Near world i j →
        Agree world ((World.diagonal reached).Found i j) (next i) (next j)) :
    Steady library start (Itself library (World.diagonal reached).Near) next := by
  refine steady_of_agree reached (World.lasting_near _) ?_ growing ?_
  · exact fun world since i j near => near.same since
  · intro world since i j near
    apply (agree world since i j near).imp
    intro later _ xs ys found
    exact found.known (.refl _)

include tree

theorem steady_localProviders (tier : Scope) (category : Option Category) :
    Steady library start (Itself library (World.diagonal reached).Near)
      (localProviders · tier category) :=
  steady_of_found reached (growing_localProviders · tier category)
    fun _ since _ _ near => agree_localProviders tree since near tier category

theorem steady_aggregated (scope : Scope) (withBuild : Bool) :
    Steady library start (Itself library (World.diagonal reached).Near)
      (aggregated · scope withBuild) :=
  steady_of_found reached (growing_aggregated · scope withBuild)
    fun _ since _ _ near => agree_aggregated tree since near scope withBuild

theorem steady_moduleStep {id : ResourceId} (known : id < start.next library)
    (origin : ResourcePath) (scope : Scope) :
    Steady library start (Itself library (World.diagonal reached).Met)
      (moduleStep id origin scope) := by
  refine steady_of_agree reached (World.lasting_met _) (fun _ _ _ _ met => met.1)
    (growing_moduleStep id origin scope) ?_
  intro world since i j met
  apply (agree_moduleStep tree since (World.diagonal_same reached known) met origin scope).imp
  exact fun _ _ _ _ found => ⟨found.1, fun some => (found.2 some).lt_next⟩

theorem steady_sortEdges {candidates : List ResourceId}
    (known : ∀ id ∈ candidates, id < start.next library) (scope : Scope) :
    Steady library start (Itself library (Listed candidates))
      (sortEdges candidates scope) := by
  refine steady_of_agree reached (fun _ _ _ _ _ related => related) ?_
    (growing_sortEdges candidates scope) ?_
  · rintro world since i _ ⟨rfl, member⟩
    exact World.lasting_same since (World.diagonal_same reached (known i member))
  · rintro world since i _ ⟨rfl, member⟩
    apply (agree_sortEdges_self tree reached known since member scope).imp
    exact fun _ _ _ _ both => ⟨both, fun _ => ⟨known i member, known i member⟩⟩

end

theorem walk_of_sort {candidates order : List ResourceId} {scope : Scope} {strict : Bool}
    (given : (sort candidates scope strict).answer library start = (.ok order, grown)) :
    ∃ walk, (Walk.postOrder (start.next library + 1) (sortEdges candidates scope)
        candidates).answer library start = (.ok walk, grown) ∧ order = walk.order ∧
      (strict = true → walk.cycles = []) := by
  rw [sort, answer_bind, answer_depth] at given
  obtain ⟨walk, middle, walked, done⟩ := answer_bind_eq_ok_iff.mp given
  cases strict with
  | false =>
    cases done
    exact ⟨walk, walked, rfl, fun strict => nomatch strict⟩
  | true =>
    cases cycles : walk.cycles with
    | nil =>
      rw [cycles] at done
      cases done
      exact ⟨walk, walked, rfl, fun _ => cycles⟩
    | cons cycle rest =>
      rw [cycles] at done
      cases done

section
variable {candidates order : List ResourceId} {scope : Scope}
  (known : ∀ id ∈ candidates, id < start.next library)
include tree reached known

theorem passed_of_sort {strict : Bool}
    (given : (sort candidates scope strict).answer library start = (.ok order, grown)) :
    ∃ walk, order = walk.order ∧ (strict = true → walk.cycles = []) ∧
      Walk.Passed (edgesAmong library grown (sortEdges candidates scope) walk.order) [] candidates
        Walk.none walk ∧
      ∀ id ∈ walk.order, Asked library start (Itself library (Listed candidates))
        (sortEdges candidates scope) grown id := by
  obtain ⟨walk, walked, same, straight⟩ := walk_of_sort given
  have steady := steady_sortEdges tree reached known scope
  have here : ∀ id ∈ candidates, Itself library (Listed candidates) start id :=
    fun id member => ⟨reached, rfl, member⟩
  exact ⟨walk, same, straight, passed_of_answer steady here walked .refl,
    (followed_postOrder steady here walked).1⟩

theorem mem_of_sort {strict : Bool}
    (given : (sort candidates scope strict).answer library start = (.ok order, grown)) :
    order.Nodup ∧ ∀ id, id ∈ order ↔ id ∈ candidates := by
  obtain ⟨walk, rfl, _, passed, asked⟩ := passed_of_sort tree reached known given
  refine ⟨passed.sound.single, fun id => ⟨fun member => ?_, fun member => ?_⟩⟩
  · obtain ⟨_, _, listed⟩ := (asked id member).inside
    exact listed
  · exact (passed.left id member).resolve_right (by simp)

theorem precedes_of_sort
    (given : (sort candidates scope true).answer library start = (.ok order, grown))
    {node next : ResourceId} (member : node ∈ candidates)
    (edge : Finds library grown (sortEdges candidates scope node) next) :
    Walk.Precedes order next node := by
  have listed := (mem_of_sort tree reached known given).2 node |>.mpr member
  obtain ⟨walk, rfl, straight, passed, _⟩ := passed_of_sort tree reached known given
  refine passed.sound.straight (straight rfl) node listed next ?_
  rw [edgesAmong, if_pos listed]
  exact mem_found_iff.mpr edge

theorem sortEdges_of_sort {strict : Bool}
    (given : (sort candidates scope strict).answer library start = (.ok order, grown))
    {node : ResourceId} (member : node ∈ candidates) :
    ∃ ids, Settled library grown (sortEdges candidates scope node) ids := by
  have listed := (mem_of_sort tree reached known given).2 node |>.mpr member
  obtain ⟨walk, rfl, _, _, asked⟩ := passed_of_sort tree reached known given
  exact ⟨_, (asked node listed).settled⟩

theorem perm_of_arranged (single : candidates.Nodup) {sorted : Bool}
    (given : (arranged candidates scope sorted).answer library start = (.ok order, grown)) :
    order.Perm candidates := by
  cases sorted with
  | true =>
    have sorted : (sort candidates scope false).answer library start = (.ok order, grown) := given
    obtain ⟨sole, members⟩ := mem_of_sort tree reached known sorted
    exact (List.perm_ext_iff_of_nodup sole single).mpr members
  | false =>
    cases given
    exact List.mergeSort_perm _ _

end

end ResourceLibrary.Query
