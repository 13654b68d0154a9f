import Mathlib.Data.List.Perm.Basic
import ResourceLibrary.Proofs.Arena.Layout

/-!
Siblings of different names. What is added below a name reads nothing but the node above it and what
stands at and below that name, and changes nothing else. Main statement: where no two siblings share
a name, declarations can be reordered at any depths, and what is added stays the same.
-/

namespace ResourceLibrary

def ResourcePath.Within (path base : ResourcePath) : Prop := base.segments <+: path.segments

namespace ResourcePath.Within
variable {path base : ResourcePath} {name other : String}

theorem refl (path : ResourcePath) : path.Within path := List.prefix_rfl

theorem of_child (inside : path.Within (base.child name)) : path.Within base :=
  (List.prefix_append _ _).trans inside

theorem ne_base (inside : path.Within (base.child name)) : path ≠ base := by
  rintro rfl
  have longer := List.IsPrefix.length_le inside
  simp only [ResourcePath.child, List.length_append, List.length_singleton] at longer
  exact Nat.not_succ_le_self _ longer

theorem name_eq (one : path.Within (base.child name)) (two : path.Within (base.child other)) :
    name = other := by
  have ways := List.prefix_of_prefix_length_le one two (by simp [ResourcePath.child])
  have same := ways.eq_of_length (by simp [ResourcePath.child])
  simpa [ResourcePath.child] using same

end ResourcePath.Within

namespace Layout
variable {ground : Ground}

mutual

theorem add_outside {layout grown : Layout} {place path : ResourcePath} :
    ∀ declaration, layout.add ground place declaration = .ok grown →
      ¬path.Within (place.child declaration.header.name) → grown path = layout path
  | ⟨header, nested⟩, done, outside => by
    obtain ⟨_, node, _, below⟩ := add_eq_ok_iff.mp done
    rw [addAll_outside nested below fun _ _ inside => outside inside.of_child,
      Function.update_of_ne]
    rintro rfl
    exact outside (.refl _)

theorem addAll_outside {layout grown : Layout} {place path : ResourcePath} :
    ∀ declarations, layout.addAll ground place declarations = .ok grown →
      (∀ declaration ∈ declarations, ¬path.Within (place.child declaration.header.name)) →
      grown path = layout path
  | [], done, _ => by rw [addAll_nil_eq_ok_iff.mp done]
  | declaration :: rest, done, outside => by
    obtain ⟨mid, first, further⟩ := addAll_cons_eq_ok_iff.mp done
    rw [addAll_outside rest further fun other member => outside other (by simp [member]),
      add_outside declaration first (outside declaration (by simp))]

end

mutual

/-- A declaration reads nothing but the node above it and what stands at and below its own path. -/
theorem add_agree {first second grown : Layout} {place : ResourcePath}
    (here : first place = second place) :
    ∀ declaration, (∀ path, path.Within (place.child declaration.header.name) →
        first path = second path) →
      first.add ground place declaration = .ok grown →
      ∃ other, second.add ground place declaration = .ok other ∧
        ∀ path, path.Within (place.child declaration.header.name) → grown path = other path
  | ⟨header, nested⟩, below, done => by
    obtain ⟨admitted, node, settled, inner⟩ := add_eq_ok_iff.mp done
    have above : first.node place = second.node place := by rw [Layout.node, here, Layout.node]
    rw [above, below _ (.refl _)] at settled
    rw [above] at admitted
    have entered : ∀ path : ResourcePath, path.Within (place.child header.name) →
        Function.update first (place.child header.name) (some node) path =
          Function.update second (place.child header.name) (some node) path := by
      intro path inside
      by_cases same : path = place.child header.name
      · rw [same, Function.update_self, Function.update_self]
      · rw [Function.update_of_ne same, Function.update_of_ne same, below path inside]
    obtain ⟨other, also, alike⟩ := addAll_agree nested entered inner
    exact ⟨other, add_eq_ok_iff.mpr ⟨admitted, node, settled, also⟩, alike⟩

theorem addAll_agree {first second grown : Layout} {place : ResourcePath} :
    ∀ declarations, (∀ path, path.Within place → first path = second path) →
      first.addAll ground place declarations = .ok grown →
      ∃ other, second.addAll ground place declarations = .ok other ∧
        ∀ path, path.Within place → grown path = other path
  | [], below, done => by
    rw [addAll_nil_eq_ok_iff.mp done]
    exact ⟨second, rfl, below⟩
  | declaration :: rest, below, done => by
    obtain ⟨mid, added, further⟩ := addAll_cons_eq_ok_iff.mp done
    obtain ⟨next, also, alike⟩ := add_agree (below _ (.refl _)) declaration
      (fun path inside => below path inside.of_child) added
    -- The sibling changes its own subtree alone, and there the two layouts agree by the case above.
    have still : ∀ path : ResourcePath, path.Within place → mid path = next path := by
      intro path inside
      by_cases own : path.Within (place.child declaration.header.name)
      · exact alike path own
      · rw [add_outside declaration added own, add_outside declaration also own, below path inside]
    obtain ⟨other, behind, same⟩ := addAll_agree rest still further
    exact ⟨other, addAll_cons_eq_ok_iff.mpr ⟨next, also, behind⟩, same⟩

end

theorem add_comm {layout mid grown : Layout} {place : ResourcePath} {a b : Declaration}
    (different : a.header.name ≠ b.header.name) (first : layout.add ground place a = .ok mid)
    (second : mid.add ground place b = .ok grown) :
    ∃ other, layout.add ground place b = .ok other ∧ other.add ground place a = .ok grown := by
  have apart : ∀ {path : ResourcePath}, path.Within (place.child b.header.name) →
      ¬path.Within (place.child a.header.name) := fun inB inA => different (inA.name_eq inB)
  have above : ∀ name, ¬place.Within (place.child name) := fun name inside => inside.ne_base rfl
  obtain ⟨other, alsoB, alikeB⟩ := add_agree (add_outside a first (above _)) b
    (fun path inB => add_outside a first (apart inB)) second
  obtain ⟨last, alsoA, alikeA⟩ := add_agree (add_outside b alsoB (above _)).symm a
    (fun path inA => (add_outside b alsoB fun inB => apart inB inA).symm) first
  refine ⟨other, alsoB, ?_⟩
  -- The two results are compared path by path: below the first, below the second, and elsewhere.
  suffices last = grown by rw [alsoA, this]
  funext path
  by_cases inA : path.Within (place.child a.header.name)
  · rw [← alikeA path inA, add_outside b second fun inB => apart inB inA]
  · rw [add_outside a alsoA inA]
    by_cases inB : path.Within (place.child b.header.name)
    · exact (alikeB path inB).symm
    · rw [add_outside b alsoB inB, add_outside b second inB, add_outside a first inA]

end Layout

namespace Declaration

/-- The same declarations with siblings in another order, at any depths. -/
inductive Reordered : List Declaration → List Declaration → Prop
  | nil : Reordered [] []
  | cons (header : Header) {nested other first second : List Declaration}
    (inside : Reordered nested other) (behind : Reordered first second) :
    Reordered (⟨header, nested⟩ :: first) (⟨header, other⟩ :: second)
  | swap (a b : Declaration) (rest : List Declaration) :
    Reordered (a :: b :: rest) (b :: a :: rest)
  | trans {first second third : List Declaration} (before : Reordered first second)
    (after : Reordered second third) : Reordered first third

inductive SinglyNamed : List Declaration → Prop
  | intro {declarations : List Declaration} (names : (declarations.map (·.header.name)).Nodup)
    (inner : ∀ declaration ∈ declarations, SinglyNamed declaration.nested) :
    SinglyNamed declarations

theorem singlyNamed_cons_iff {declaration : Declaration} {rest : List Declaration} :
    SinglyNamed (declaration :: rest) ↔
      declaration.header.name ∉ rest.map (·.header.name) ∧ SinglyNamed declaration.nested ∧
        SinglyNamed rest := by
  constructor
  · rintro ⟨names, inner⟩
    obtain ⟨fresh, others⟩ := List.nodup_cons.mp names
    exact ⟨fresh, inner _ (by simp), others, fun other member => inner other (by simp [member])⟩
  · rintro ⟨fresh, own, ⟨names, inner⟩⟩
    exact ⟨List.nodup_cons.mpr ⟨fresh, names⟩, List.forall_mem_cons.mpr ⟨own, inner⟩⟩

namespace Reordered
variable {first second : List Declaration}

theorem refl : ∀ declarations, Reordered declarations declarations
  | [] => .nil
  | ⟨header, nested⟩ :: rest => .cons header (refl nested) (refl rest)

theorem symm (reordered : Reordered first second) : Reordered second first := by
  induction reordered with
  | nil => exact .nil
  | cons header _ _ inside behind => exact .cons header inside behind
  | swap a b rest => exact .swap b a rest
  | trans _ _ before after => exact after.trans before

theorem of_perm (perm : first.Perm second) : Reordered first second := by
  induction perm with
  | nil => exact .nil
  | cons declaration _ ih =>
    obtain ⟨header, nested⟩ := declaration
    exact .cons header (refl nested) ih
  | swap a b rest => exact .swap b a rest
  | trans _ _ before after => exact before.trans after

theorem names_perm (reordered : Reordered first second) :
    (first.map (·.header.name)).Perm (second.map (·.header.name)) := by
  induction reordered with
  | nil => exact .nil
  | cons header _ _ _ behind => exact behind.cons header.name
  | swap a b rest => exact .swap b.header.name a.header.name _
  | trans _ _ before after => exact before.trans after

theorem isEmpty_eq (reordered : Reordered first second) : first.isEmpty = second.isEmpty := by
  have names := reordered.names_perm.length_eq
  cases first <;> cases second <;> simp_all

theorem singlyNamed (reordered : Reordered first second) (single : SinglyNamed first) :
    SinglyNamed second := by
  induction reordered with
  | nil => exact single
  | cons header _ behind inner outer =>
    obtain ⟨fresh, own, others⟩ := singlyNamed_cons_iff.mp single
    refine singlyNamed_cons_iff.mpr ⟨fun member => fresh ?_, inner own, outer others⟩
    exact behind.names_perm.mem_iff.mpr member
  | swap a b rest =>
    simp only [singlyNamed_cons_iff, List.map_cons, List.mem_cons, not_or] at single ⊢
    obtain ⟨⟨different, freshA⟩, ownA, freshB, ownB, others⟩ := single
    exact ⟨⟨Ne.symm different, freshB⟩, ownB, freshA, ownA, others⟩
  | trans _ _ before after => exact after (before single)

end Reordered
end Declaration

namespace Layout
variable {ground : Ground}

/-- Reordered declarations come to the same, if no two siblings have one name. -/
theorem addAll_reordered {first second : List Declaration}
    (reordered : Declaration.Reordered first second) (single : Declaration.SinglyNamed first)
    {layout grown : Layout} {place : ResourcePath}
    (done : layout.addAll ground place first = .ok grown) :
    layout.addAll ground place second = .ok grown := by
  induction reordered generalizing layout grown place with
  | nil => exact done
  | @cons header nested other front back inside _ inner outer =>
    obtain ⟨_, own, others⟩ := Declaration.singlyNamed_cons_iff.mp single
    obtain ⟨mid, added, further⟩ := addAll_cons_eq_ok_iff.mp done
    obtain ⟨admitted, node, settled, below⟩ := add_eq_ok_iff.mp added
    refine addAll_cons_eq_ok_iff.mpr ⟨mid, add_eq_ok_iff.mpr ⟨?_, node, settled, ?_⟩, ?_⟩
    · rw [← admitted, Declaration.admit, Declaration.admit]
      simp only [inside.isEmpty_eq]
    · exact inner own below
    · exact outer others further
  | swap a b rest =>
    have different : a.header.name ≠ b.header.name := by
      have fresh := (Declaration.singlyNamed_cons_iff.mp single).1
      exact fun same => fresh (by simp [same])
    obtain ⟨mid, first, others⟩ := addAll_cons_eq_ok_iff.mp done
    obtain ⟨next, second, further⟩ := addAll_cons_eq_ok_iff.mp others
    obtain ⟨other, alsoB, alsoA⟩ := add_comm different first second
    exact addAll_cons_eq_ok_iff.mpr ⟨other, alsoB, addAll_cons_eq_ok_iff.mpr ⟨next, alsoA, further⟩⟩
  | trans before _ earlier later =>
    exact later (before.singlyNamed single) (earlier single done)

end Layout
end ResourceLibrary
