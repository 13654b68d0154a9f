import ResourceLibrary.Proofs.Arena.Descent
import ResourceLibrary.Proofs.Text.Patterns

/-!
Criteria as patterns for the way down from a module. Main statements: the ways down lead to what lies
at or below a node; and what criteria select, by their first token.
-/

namespace ResourceLibrary

/-- The nodes on the way down to a resource, each a child of the one before. -/
inductive Leads (nodes : ResourceId → Node) : ResourceId → List Node → ResourceId → Prop
  | here (id : ResourceId) : Leads nodes id [] id
  | down {outer child inner : ResourceId} {way : List Node}
    (up : (nodes child).parent = some outer) (rest : Leads nodes child way inner) :
    Leads nodes outer (nodes child :: way) inner

def ModuleBelow (nodes : ResourceId → Node) (outer inner : ResourceId) : Prop :=
  (nodes inner).parent = some outer ∧ (nodes inner).isModule = true

/-- The token stands for the name; a lone star stands for every name. -/
def Fits (token name : String) : Prop := token = "*" ∨ Glob.Spells token.toList name.toList

/-- Tokens that stand for the nodes on a way. `deep` tells whether two stars stood directly before:
a star at the end then also stands for the node that they reach. -/
inductive Matches : Bool → List String → List Node → Prop
  | anywhere {deep : Bool} {way : List Node} (modules : ∀ step ∈ way, step.isModule = true) :
    Matches deep ["**"] way
  | child {deep : Bool} {token : String} {step : Node} (plain : token ≠ "**")
    (fits : Fits token step.name) : Matches deep [token] [step]
  | itself : Matches true ["*"] []
  | across {deep : Bool} {rest : List String} {passed left : List Node}
    (modules : ∀ step ∈ passed, step.isModule = true) (further : Matches true rest left) :
    Matches deep ("**" :: rest) (passed ++ left)
  | into {deep : Bool} {token : String} {rest : List String} {step : Node} {left : List Node}
    (plain : token ≠ "**") (module : step.isModule = true) (fits : Fits token step.name)
    (further : Matches false rest left) : Matches deep (token :: rest) (step :: left)

/-- The modules that a token in front of others lets them start from; a root stays out. -/
def Chooses (nodes : ResourceId → Node) (token : String) (outer inner : ResourceId) : Prop :=
  if token = "**" then
    (nodes inner).isRoot = false ∧ Relation.ReflTransGen (ModuleBelow nodes) outer inner
  else ModuleBelow nodes outer inner ∧ Fits token (nodes inner).name

/-- The tokens select a resource: it is no root, and they stand for its way down. -/
def Selects (nodes : ResourceId → Node) (deep : Bool) (tokens : List String)
    (outer inner : ResourceId) : Prop :=
  (nodes inner).isRoot = false ∧ ∃ way, Leads nodes outer way inner ∧ Matches deep tokens way

section
variable {nodes : ResourceId → Node} {outer inner : ResourceId}

theorem leads_nil_iff : Leads nodes outer [] inner ↔ inner = outer := by
  constructor
  · rintro ⟨⟩
    rfl
  · rintro rfl
    exact .here _

theorem leads_cons_iff {step : Node} {way : List Node} :
    Leads nodes outer (step :: way) inner ↔
      ∃ child, (nodes child).parent = some outer ∧ step = nodes child ∧
        Leads nodes child way inner := by
  constructor
  · rintro (_ | ⟨up, rest⟩)
    exact ⟨_, up, rfl, rest⟩
  · rintro ⟨child, up, rfl, rest⟩
    exact .down up rest

theorem leads_singleton_iff {step : Node} :
    Leads nodes outer [step] inner ↔ (nodes inner).parent = some outer ∧ step = nodes inner := by
  simp only [leads_cons_iff, leads_nil_iff]
  constructor
  · rintro ⟨child, up, rfl, rfl⟩
    exact ⟨up, rfl⟩
  · rintro ⟨up, rfl⟩
    exact ⟨inner, up, rfl, rfl⟩

theorem leads_append_iff {first second : List Node} :
    Leads nodes outer (first ++ second) inner ↔
      ∃ middle, Leads nodes outer first middle ∧ Leads nodes middle second inner := by
  induction first generalizing outer with
  | nil => simp [leads_nil_iff]
  | cons step way ih =>
    simp only [List.cons_append, leads_cons_iff, ih]
    constructor
    · rintro ⟨child, up, same, middle, front, back⟩
      exact ⟨middle, ⟨child, up, same, front⟩, back⟩
    · rintro ⟨middle, ⟨child, up, same, front⟩, back⟩
      exact ⟨child, up, same, middle, front, back⟩

theorem atOrBelow_iff_leads : AtOrBelow nodes outer inner ↔ ∃ way, Leads nodes outer way inner := by
  constructor
  · intro below
    induction below with
    | refl => exact ⟨[], .here _⟩
    | tail _ up ih =>
      obtain ⟨way, leads⟩ := ih
      exact ⟨_, .down up leads⟩
  · rintro ⟨way, leads⟩
    induction leads with
    | here => exact .refl
    | down up _ ih => exact .tail ih up

theorem modulesBelow_iff_leads :
    Relation.ReflTransGen (ModuleBelow nodes) outer inner ↔
      ∃ way, Leads nodes outer way inner ∧ ∀ step ∈ way, step.isModule = true := by
  constructor
  · intro reach
    induction reach using Relation.ReflTransGen.head_induction_on with
    | refl => exact ⟨[], .here _, by simp⟩
    | head below _ ih =>
      obtain ⟨way, leads, modules⟩ := ih
      exact ⟨_, .down below.1 leads, List.forall_mem_cons.mpr ⟨below.2, modules⟩⟩
  · rintro ⟨way, leads, modules⟩
    induction leads with
    | here => exact .refl
    | down up _ ih =>
      obtain ⟨module, rest⟩ := List.forall_mem_cons.mp modules
      exact .head ⟨up, module⟩ (ih rest)

theorem atOrBelow_of_modulesBelow (reach : Relation.ReflTransGen (ModuleBelow nodes) outer inner) :
    AtOrBelow nodes outer inner := by
  obtain ⟨way, leads, _⟩ := modulesBelow_iff_leads.mp reach
  exact atOrBelow_iff_leads.mpr ⟨way, leads⟩

theorem atOrBelow_of_chooses {token : String} (chosen : Chooses nodes token outer inner) :
    AtOrBelow nodes outer inner := by
  unfold Chooses at chosen
  split at chosen
  · exact atOrBelow_of_modulesBelow chosen.2
  · exact .single chosen.1.1

variable {deep : Bool} {token next : String} {rest : List String}

theorem not_matches_nil {way : List Node} : ¬Matches deep [] way := nofun

theorem matches_singleton_iff {way : List Node} :
    Matches deep [token] way ↔
      (token = "**" ∧ ∀ step ∈ way, step.isModule = true) ∨
      (token ≠ "**" ∧ ∃ step, way = [step] ∧ Fits token step.name) ∨
      (deep = true ∧ token = "*" ∧ way = []) := by
  constructor
  · intro matched
    cases matched with
    | anywhere modules => exact .inl ⟨rfl, modules⟩
    | child plain fits => exact .inr (.inl ⟨plain, _, rfl, fits⟩)
    | itself => exact .inr (.inr ⟨rfl, rfl, rfl⟩)
    | across _ further => exact absurd further not_matches_nil
    | into _ _ _ further => exact absurd further not_matches_nil
  · rintro (⟨rfl, modules⟩ | ⟨plain, step, rfl, fits⟩ | ⟨rfl, rfl, rfl⟩)
    · exact .anywhere modules
    · exact .child plain fits
    · exact .itself

theorem matches_cons_cons_iff {way : List Node} :
    Matches deep (token :: next :: rest) way ↔
      (token = "**" ∧ ∃ passed left, way = passed ++ left ∧
        (∀ step ∈ passed, step.isModule = true) ∧ Matches true (next :: rest) left) ∨
      (token ≠ "**" ∧ ∃ step left, way = step :: left ∧ step.isModule = true ∧
        Fits token step.name ∧ Matches false (next :: rest) left) := by
  constructor
  · intro matched
    cases matched with
    | across modules further => exact .inl ⟨rfl, _, _, rfl, modules, further⟩
    | into plain module fits further => exact .inr ⟨plain, _, _, rfl, module, fits, further⟩
  · rintro (⟨rfl, passed, left, rfl, modules, further⟩ |
      ⟨plain, step, left, rfl, module, fits, further⟩)
    · exact .across modules further
    · exact .into plain module fits further

theorem not_selects_nil : ¬Selects nodes deep [] outer inner := by
  rintro ⟨_, _, _, matched⟩
  exact not_matches_nil matched

theorem selects_anywhere :
    Selects nodes deep ["**"] outer inner ↔
      (nodes inner).isRoot = false ∧ Relation.ReflTransGen (ModuleBelow nodes) outer inner := by
  rw [Selects, modulesBelow_iff_leads]
  simp [matches_singleton_iff]

theorem selects_child (plain : token ≠ "**") :
    Selects nodes deep [token] outer inner ↔
      (nodes inner).isRoot = false ∧
        ((nodes inner).parent = some outer ∧ Fits token (nodes inner).name ∨
          deep = true ∧ token = "*" ∧ inner = outer) := by
  refine and_congr_right fun _ => ?_
  constructor
  · rintro ⟨way, leads, matched⟩
    rcases matches_singleton_iff.mp matched with ⟨same, _⟩ | ⟨_, step, rfl, fits⟩ |
      ⟨after, star, rfl⟩
    · exact absurd same plain
    · obtain ⟨up, rfl⟩ := leads_singleton_iff.mp leads
      exact .inl ⟨up, fits⟩
    · exact .inr ⟨after, star, leads_nil_iff.mp leads⟩
  · rintro (⟨up, fits⟩ | ⟨rfl, rfl, rfl⟩)
    · exact ⟨_, leads_singleton_iff.mpr ⟨up, rfl⟩, .child plain fits⟩
    · exact ⟨[], .here _, .itself⟩

theorem selects_over :
    Selects nodes deep ("**" :: next :: rest) outer inner ↔
      ∃ middle, Relation.ReflTransGen (ModuleBelow nodes) outer middle ∧
        Selects nodes true (next :: rest) middle inner := by
  constructor
  · rintro ⟨inside, way, leads, matched⟩
    rcases matches_cons_cons_iff.mp matched with ⟨_, passed, left, rfl, modules, further⟩ |
      ⟨plain, _⟩
    · obtain ⟨middle, front, back⟩ := leads_append_iff.mp leads
      exact ⟨middle, modulesBelow_iff_leads.mpr ⟨passed, front, modules⟩, inside, left, back,
        further⟩
    · exact absurd rfl plain
  · rintro ⟨middle, reach, inside, left, back, further⟩
    obtain ⟨passed, front, modules⟩ := modulesBelow_iff_leads.mp reach
    exact ⟨inside, _, leads_append_iff.mpr ⟨middle, front, back⟩, .across modules further⟩

theorem selects_into (plain : token ≠ "**") :
    Selects nodes deep (token :: next :: rest) outer inner ↔
      ∃ child, Chooses nodes token outer child ∧
        Selects nodes false (next :: rest) child inner := by
  simp only [Chooses, if_neg plain]
  constructor
  · rintro ⟨inside, way, leads, matched⟩
    rcases matches_cons_cons_iff.mp matched with ⟨same, _⟩ |
      ⟨_, step, left, rfl, module, fits, further⟩
    · exact absurd same plain
    · obtain ⟨child, up, rfl, back⟩ := leads_cons_iff.mp leads
      exact ⟨child, ⟨⟨up, module⟩, fits⟩, inside, left, back, further⟩
  · rintro ⟨child, ⟨⟨up, module⟩, fits⟩, inside, left, back, further⟩
    exact ⟨inside, _, .down up back, .into plain module fits further⟩

end

end ResourceLibrary
