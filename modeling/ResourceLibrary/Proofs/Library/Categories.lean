import ResourceLibrary.Proofs.Library.Choice
import ResourceLibrary.Proofs.Library.Includes

/-!
Classpaths by category. Main statement: a resource stands in the classpath of the lowest category
that brings it in, so the classpaths of the tiers share nothing, and together the classpaths hold
what the RUNTIME providers hold.
-/

namespace ResourceLibrary
open Registry (Grows Reached)

namespace Category

theorem length_lowerTiers_lt {lower category : Category} (member : lower ∈ category.lowerTiers) :
    lower.lowerTiers.length < category.lowerTiers.length := by
  revert member
  cases lower <;> cases category <;> decide

theorem lowerTiers_subset {lower category : Category} (member : lower ∈ category.lowerTiers) :
    lower.lowerTiers ⊆ category.lowerTiers := by
  revert member
  cases lower <;> cases category <;> decide

theorem mem_lowerTiers_or {first second : Category} (one : first ∈ classpath)
    (two : second ∈ classpath) (apart : first ≠ second) :
    first ∈ second.lowerTiers ∨ second ∈ first.lowerTiers := by
  revert one two apart
  cases first <;> cases second <;> decide

theorem ranked_of_mem {tier category : Category} (ranked : tier ∈ classpath)
    (member : category ∈ tier.lowerTiers ++ [tier]) : category ∈ classpath := by
  revert ranked member
  cases tier <;> cases category <;> decide

theorem exists_least (holds : Category → Prop) {category : Category} (given : holds category) :
    ∃ least, holds least ∧ ∀ lower ∈ least.lowerTiers, ¬holds lower := by
  induction h : category.lowerTiers.length using Nat.strongRecOn generalizing category with
  | ind k ih =>
    subst h
    by_cases further : ∃ lower ∈ category.lowerTiers, holds lower
    · obtain ⟨lower, member, also⟩ := further
      exact ih _ (length_lowerTiers_lt member) also rfl
    · exact ⟨category, given, fun lower member also => further ⟨lower, member, also⟩⟩

end Category

/-- A resource in the expansion of what another one brings in. -/
def Introduces (library : Library) (registry : Registry) (id : ResourceId)
    (category : Option Category) (found : ResourceId) : Prop :=
  ∃ first, BringsIn library registry .runtime category id first ∧
    Relation.ReflTransGen (ExpansionStep library registry .runtime) first found

section
variable {library : Library} {registry : Registry} {id found : ResourceId}

theorem bringsIn_none_iff :
    BringsIn library registry .runtime none id found ↔
      ∃ category, BringsIn library registry .runtime (some category) id found := by
  unfold BringsIn
  rw [exists_comm]
  refine exists_congr fun header => ?_
  rw [exists_and_left]
  refine and_congr_right fun _ => ?_
  constructor
  · rintro (⟨entry, listed, leads⟩ | ⟨tier, _, child⟩)
    · refine ⟨entry.category, .inl ⟨entry, ?_, leads⟩⟩
      rw [Header.mem_includes_iff] at listed ⊢
      exact ⟨listed.1, by simp⟩
    · exact ⟨.undefined, .inr ⟨tier, rfl, child⟩⟩
  · rintro ⟨category, ⟨entry, listed, leads⟩ | ⟨tier, _, child⟩⟩
    · refine .inl ⟨entry, ?_, leads⟩
      rw [Header.mem_includes_iff] at listed ⊢
      exact ⟨listed.1, rfl⟩
    · exact .inr ⟨tier, rfl, child⟩

theorem introduces_none_iff :
    Introduces library registry id none found ↔
      ∃ category, Introduces library registry id (some category) found := by
  unfold Introduces
  simp only [bringsIn_none_iff]
  constructor
  · rintro ⟨first, ⟨category, brought⟩, way⟩
    exact ⟨category, first, brought, way⟩
  · rintro ⟨category, first, brought, way⟩
    exact ⟨first, ⟨category, brought⟩, way⟩

theorem introduces_tier_iff {tier : Category} (ranked : tier ∈ Category.classpath) :
    Introduces library registry id (some tier) found ↔
      ∃ header, (library.node registry id).header = some header ∧
        ∃ entry ∈ header.includes .runtime (some tier), ∃ first,
          entry.Leads library registry (library.node registry id) first ∧
            Relation.ReflTransGen (ExpansionStep library registry .runtime) first found := by
  have explicit : isImplicit (some tier) = false := by
    revert ranked
    cases tier <;> decide
  simp only [Introduces, BringsIn, explicit, Bool.false_eq_true, false_and, and_false, or_false]
  constructor
  · rintro ⟨first, ⟨header, stated, entry, listed, leads⟩, way⟩
    exact ⟨header, stated, entry, listed, first, leads, way⟩
  · rintro ⟨header, stated, entry, listed, first, leads, way⟩
    exact ⟨first, ⟨header, stated, entry, listed, leads⟩, way⟩

end

namespace Query
variable {library : Library} (tree : library.arena.IsTree) {start grown : Registry}
  (reached : Reached library start) {id : ResourceId} (known : id < start.next library)
include tree reached known

theorem mem_of_tierProviders {category : Option Category} {ids : List ResourceId}
    (given : (tierProviders id .runtime true category).answer library start = (.ok ids, grown))
    {last : Registry} (rest : Grows library grown last) :
    ids.Nodup ∧ (∀ found ∈ ids, found < grown.next library) ∧
      ∀ found, found ∈ ids ↔ Introduces library last id category found := by
  have steady := steady_localProviders tree reached .runtime category
  have expansion : Expansion library grown .runtime (localProviders id .runtime category) ids :=
    expansion_of_expanded tree reached steady known given
  obtain ⟨starts, early, asked, closed⟩ := answer_bind_eq_ok_iff.mp given
  have onward := (growing_expanded starts .runtime).grows closed
  have later : Grows library early last := onward.trans rest
  have settled := (settled_of_answer reached steady known asked).1.later later
  rw [localProviders_eq_declared (by decide)] at asked
  refine ⟨expansion.single, expansion.known, fun found => ?_⟩
  rw [(expansion.later rest).mem_iff]
  refine exists_congr fun first => and_congr_left fun _ => ?_
  rw [settled.finds_iff, mem_declared_iff_bringsIn tree reached known asked later]

/-- The classpath of a category holds what the category introduces and no lower tier does. -/
theorem mem_of_categoryClasspath {category : Category} {ids : List ResourceId}
    (given : (categoryClasspath id category).answer library start = (.ok ids, grown))
    {last : Registry} (rest : Grows library grown last) :
    ids.Nodup ∧ ∀ found, found ∈ ids ↔
      (library.node last found).produces classpathType = true ∧
        Introduces library last id (some category) found ∧
        ∀ lower ∈ category.lowerTiers, ¬Introduces library last id (some lower) found := by
  obtain ⟨lists, middle, mapped, further⟩ := answer_bind_eq_ok_iff.mp given
  obtain ⟨found, late, asked, ordered⟩ := answer_bind_eq_ok_iff.mp further
  have growing : ∀ tier : Category, Growing (tierProviders id .runtime true (some tier)) :=
    fun tier => growing_tierProviders id .runtime true (some tier)
  have first := (growing_mapM growing category.lowerTiers).grows mapped
  have second := (growing category).grows asked
  have begun := reached.grows first
  rw [answer_bind, answer_nodes] at ordered
  simp only at ordered
  have third := (growing_sort _ _ _).grows ordered
  obtain ⟨single, inside, introduced⟩ := mem_of_tierProviders tree begun
    (Nat.lt_of_lt_of_le known first.next_le) asked (third.trans rest)
  have lower : ∀ other, other ∈ lists.flatten ↔
      ∃ tier ∈ category.lowerTiers, Introduces library last id (some tier) other := by
    intro other
    refine mem_flatten_of_forall₂ ?_
    refine (forall₂_of_answer_mapM growing mapped).imp ?_
    rintro tier list ⟨before, after, since, answered, onward⟩ other
    exact (mem_of_tierProviders tree (reached.grows since)
      (Nat.lt_of_lt_of_le known since.next_le) answered
      (onward.trans (second.trans (third.trans rest)))).2.2 other
  obtain ⟨sole, same⟩ := mem_of_sort tree (begun.grows second)
    (fun other member => inside other (List.mem_of_mem_filter member)) ordered
  refine ⟨sole, fun other => ?_⟩
  rw [same, List.mem_filter, Bool.and_eq_true, Bool.not_eq_true', List.contains_eq_mem,
    decide_eq_false_iff_not, lower, introduced]
  constructor
  · rintro ⟨brought, fresh, jar⟩
    rw [← Grows.node (third.trans rest) (inside other ((introduced other).mpr brought))] at jar
    exact ⟨jar, brought, fun tier member also => fresh ⟨tier, member, also⟩⟩
  · rintro ⟨jar, brought, fresh⟩
    rw [Grows.node (third.trans rest) (inside other ((introduced other).mpr brought))] at jar
    exact ⟨brought, fun ⟨tier, member, also⟩ => fresh tier member also, jar⟩

end Query

namespace Library

section
variable {library : Library} (tree : library.arena.IsTree) {session : List Request} {place : Nat}
  {id : ResourceId} (known : id < (library.after (session.take place)).next library)
include tree known

theorem mem_of_answered_category {category : Category} {ids : List ResourceId}
    (answered : library.Answered session place (.categoryClasspath id category) (.resources ids)) :
    let registry := library.after session
    ids.Nodup ∧ ∀ found, found ∈ ids ↔ (library.node registry found).produces "jar" = true ∧
      Introduces library registry id (some category) found ∧
      ∀ lower ∈ category.lowerTiers, ¬Introduces library registry id (some lower) found := by
  obtain ⟨there, grown, performed⟩ := answered
  have rest := library.grows_of_place there
  obtain ⟨found, middle, given, done⟩ := Query.answer_bind_eq_ok_iff.mp performed
  cases done
  rw [performed] at rest
  exact Query.mem_of_categoryClasspath tree (reached_after _ _) known given rest

theorem mem_of_answered_providers {sorted : Bool} {ids : List ResourceId}
    (answered : library.Answered session place (.providers id .runtime true sorted)
      (.resources ids)) (found : ResourceId) :
    found ∈ ids ↔ Introduces library (library.after session) id none found := by
  obtain ⟨there, grown, performed⟩ := answered
  have rest := library.grows_of_place there
  obtain ⟨listed, middle, given, done⟩ := Query.answer_bind_eq_ok_iff.mp performed
  cases done
  rw [performed] at rest
  have reached := reached_after library (session.take place)
  obtain ⟨plain, early, asked, ordered⟩ := Query.answer_bind_eq_ok_iff.mp given
  have onward := (Query.growing_arranged plain .runtime sorted).grows ordered
  obtain ⟨single, inside, introduced⟩ :=
    Query.mem_of_tierProviders tree reached known asked (onward.trans rest)
  have begun := reached.grows ((Query.growing_tierProviders id .runtime true none).grows asked)
  rw [(Query.perm_of_arranged tree begun inside single ordered).mem_iff, introduced]

end

/-- Classpaths of categories list each resource once, under the lowest tier that brings it in. Those
of the tiers share nothing, those up to a tier hold the jars that its includes and those of the tiers
below lead to, and those of all categories hold the jars among the RUNTIME providers. -/
theorem categories_of_session {settings : Settings} {host : Host} {load : ImportLoader}
    {catalog : Catalog} {library : Library}
    (built : build settings host load catalog = .ok library) (session : List Request)
    (id : ResourceId) (place : Category → Nat) (lists : Category → List ResourceId) :
    let registry := library.after session
    let nodes := library.node registry
    let listed := fun category =>
      id < library.frozen.size + (library.after (session.take (place category))).nodes.size ∧
      library.Answered session (place category) (.categoryClasspath id category)
        (.resources (lists category))
    (∀ category, listed category → (lists category).Nodup) ∧
    (∀ first ∈ Category.classpath, ∀ second ∈ Category.classpath, first ≠ second →
      listed first → listed second → (lists first).Disjoint (lists second)) ∧
    (∀ tier ∈ Category.classpath, (∀ category ∈ tier.lowerTiers ++ [tier], listed category) →
      ∀ found, (∃ category ∈ tier.lowerTiers ++ [tier], found ∈ lists category) ↔
        (nodes found).produces "jar" = true ∧
        ∃ category ∈ tier.lowerTiers ++ [tier], ∃ header, (nodes id).header = some header ∧
          ∃ entry ∈ header.includes .runtime (some category), ∃ first,
            entry.Leads library registry (nodes id) first ∧
              Relation.ReflTransGen (ExpansionStep library registry .runtime) first found) ∧
    ((∀ category, listed category) → ∀ turn sorted all,
      id < library.frozen.size + (library.after (session.take turn)).nodes.size →
      library.Answered session turn (.providers id .runtime true sorted) (.resources all) →
      ∀ found, (∃ category, found ∈ lists category) ↔
        (nodes found).produces "jar" = true ∧ found ∈ all) := by
  intro registry nodes listed
  have tree := isTree_of_build built
  have facts : ∀ category, listed category → (lists category).Nodup ∧ ∀ found,
      found ∈ lists category ↔ (nodes found).produces "jar" = true ∧
        Introduces library registry id (some category) found ∧
        ∀ lower ∈ category.lowerTiers, ¬Introduces library registry id (some lower) found :=
    fun _ answered => mem_of_answered_category tree answered.1 answered.2
  -- Among categories with the tiers below them, one that introduces a resource can be taken least.
  have union : ∀ among : Category → Prop, (∀ category, among category → listed category) →
      (∀ category, among category → ∀ lower ∈ category.lowerTiers, among lower) → ∀ found,
        (∃ category, among category ∧ found ∈ lists category) ↔
          (nodes found).produces "jar" = true ∧
          ∃ category, among category ∧ Introduces library registry id (some category) found := by
    intro among answered closed found
    constructor
    · rintro ⟨category, member, inside⟩
      obtain ⟨jar, introduced, _⟩ := ((facts category (answered category member)).2 found).mp inside
      exact ⟨jar, category, member, introduced⟩
    · rintro ⟨jar, category, member, introduced⟩
      obtain ⟨least, ⟨inside, also⟩, fresh⟩ := Category.exists_least
        (fun category => among category ∧ Introduces library registry id (some category) found)
        ⟨member, introduced⟩
      refine ⟨least, inside, ((facts least (answered least inside)).2 found).mpr ⟨jar, also, ?_⟩⟩
      exact fun lower below brought => fresh lower below ⟨closed least inside lower below, brought⟩
  refine ⟨fun category answered => (facts category answered).1, ?apart, ?upTo, ?all⟩
  case apart =>
    intro first one second two apart answered also found inFirst inSecond
    obtain ⟨_, introduced, fresh⟩ := ((facts first answered).2 found).mp inFirst
    obtain ⟨_, again, free⟩ := ((facts second also).2 found).mp inSecond
    rcases Category.mem_lowerTiers_or one two apart with below | below
    · exact free first below introduced
    · exact fresh second below again
  case upTo =>
    intro tier ranked answered found
    have closed : ∀ category, category ∈ tier.lowerTiers ++ [tier] →
        ∀ lower ∈ category.lowerTiers, lower ∈ tier.lowerTiers ++ [tier] := by
      intro category member lower below
      rw [List.mem_append, List.mem_singleton] at member ⊢
      rcases member with inner | rfl
      · exact .inl (Category.lowerTiers_subset inner below)
      · exact .inl below
    rw [union (· ∈ tier.lowerTiers ++ [tier]) answered closed]
    refine and_congr_right fun _ => exists_congr fun category => and_congr_right fun member => ?_
    exact introduces_tier_iff (Category.ranked_of_mem ranked member)
  case all =>
    intro answered turn sorted all known given found
    have whole := union (fun _ => True) (fun category _ => answered category)
      (fun _ _ _ _ => trivial) found
    simp only [true_and] at whole
    rw [whole, mem_of_answered_providers tree known given, introduces_none_iff]

def recipe : Catalog :=
  let jar := fun name => (Declaration.resource name).withProduct (.ofId "jar")
  Catalog.empty.withResource ((((Declaration.module "kitchen").withNested
    (((Declaration.resource "dish").withInclude .runtime ⟨.key, .publicTier, "salt", ∅⟩).withInclude
      .runtime ⟨.key, .privateTier, "sauce", ∅⟩)).withNested (jar "salt")).withNested
    ((jar "sauce").withInclude .runtime (.of .key "salt")))

def tasting : List Request :=
  Category.all.map (.categoryClasspath 2 ·) ++ [.providers 2 .runtime true true]

theorem categories_of_session_recipe :
    ∃ library, build (.ofRoot ⟨"/"⟩) "now" .none recipe = .ok library ∧
      library.Answered tasting 2 (.categoryClasspath 2 .publicTier) (.resources [3]) ∧
      library.Answered tasting 4 (.categoryClasspath 2 .privateTier) (.resources [4]) ∧
      library.Answered tasting 7 (.providers 2 .runtime true true) (.resources [3, 4]) ∧
      [3].Disjoint [4] ∧
      ∀ found, found ∈ [3] ∨ found ∈ [4] ↔
        (library.node (library.after tasting) found).produces "jar" = true ∧ found ∈ [3, 4] := by
  let lists : Category → List ResourceId
    | .publicTier => [3]
    | .privateTier => [4]
    | _ => []
  obtain ⟨library, built, size, answered, all⟩ : ∃ library,
      build (.ofRoot ⟨"/"⟩) "now" .none recipe = .ok library ∧ library.frozen.size = 5 ∧
      (∀ category, library.Answered tasting (Category.all.idxOf category)
        (.categoryClasspath 2 category) (.resources (lists category))) ∧
      library.Answered tasting 7 (.providers 2 .runtime true true) (.resources [3, 4]) := by
    refine ⟨_, rfl, rfl, fun category => ?_, answered_of_shown rfl rfl (by decide +kernel)⟩
    cases category <;> exact answered_of_shown rfl rfl (by decide +kernel)
  have known : ∀ place, 2 < library.frozen.size +
      (library.after (tasting.take place)).nodes.size := by
    intro place
    rw [size]
    exact Nat.lt_add_right _ (by decide)
  obtain ⟨_, apart, _, whole⟩ :=
    categories_of_session built tasting 2 (Category.all.idxOf ·) lists
  refine ⟨library, built, answered .publicTier, answered .privateTier, all, ?_, fun found => ?_⟩
  · exact apart .publicTier (by decide) .privateTier (by decide) (by decide)
      ⟨known _, answered _⟩ ⟨known _, answered _⟩
  · rw [← whole (fun category => ⟨known _, answered category⟩) 7 true _ (known 7) all found]
    constructor
    · rintro (shown | hidden)
      · exact ⟨.publicTier, shown⟩
      · exact ⟨.privateTier, hidden⟩
    · rintro ⟨category, member⟩
      cases category <;> first
        | exact .inl member
        | exact .inr member
        | exact absurd member List.not_mem_nil

end Library
end ResourceLibrary
