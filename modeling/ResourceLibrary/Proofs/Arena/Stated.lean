import ResourceLibrary.Proofs.Arena.Layout

/-!
What declarations state, path by path. Main statements: what stands at a path that was free is made
of the header that is stated first for the path, and of what stands around it; what stood there
already stays as it is, whatever is stated later.
-/

namespace ResourceLibrary

namespace Declaration

mutual

def stated (place : ResourcePath) : Declaration → List (ResourcePath × Header)
  | ⟨header, nested⟩ =>
    (place.child header.name, header) :: statedAll (place.child header.name) nested

def statedAll (place : ResourcePath) : List Declaration → List (ResourcePath × Header)
  | [] => []
  | declaration :: rest => declaration.stated place ++ statedAll place rest

end

def first? (place : ResourcePath) (declarations : List Declaration) (path : ResourcePath) :
    Option Header :=
  (statedAll place declarations).lookup path

theorem statedAll_append (place : ResourcePath) (front back : List Declaration) :
    statedAll place (front ++ back) = statedAll place front ++ statedAll place back := by
  induction front with
  | nil => rfl
  | cons declaration rest ih => rw [List.cons_append, statedAll, statedAll, ih, List.append_assoc]

mutual

theorem length_lt_of_mem_stated {place : ResourcePath} {entry : ResourcePath × Header} :
    ∀ declaration, entry ∈ stated place declaration → place.length < entry.1.length
  | ⟨header, nested⟩, member => by
    have inner : place.length < (place.child header.name).length := by
      simp [ResourcePath.length, ResourcePath.child]
    rw [stated, List.mem_cons] at member
    rcases member with rfl | below
    · exact inner
    · exact Nat.lt_trans inner (length_lt_of_mem_statedAll nested below)

theorem length_lt_of_mem_statedAll {place : ResourcePath} {entry : ResourcePath × Header} :
    ∀ declarations, entry ∈ statedAll place declarations → place.length < entry.1.length
  | [], member => by cases member
  | declaration :: rest, member => by
    rw [statedAll, List.mem_append] at member
    rcases member with here | later
    · exact length_lt_of_mem_stated declaration here
    · exact length_lt_of_mem_statedAll rest later

end

theorem first?_place (place : ResourcePath) (declarations : List Declaration) :
    first? place declarations place = none := by
  rw [first?, List.lookup_eq_none_iff]
  intro entry member
  apply bne_iff_ne.mpr
  rintro rfl
  exact Nat.lt_irrefl _ (length_lt_of_mem_statedAll declarations member)

theorem first?_append (place : ResourcePath) (front back : List Declaration)
    (path : ResourcePath) :
    first? place (front ++ back) path = (first? place front path).or (first? place back path) := by
  rw [first?, statedAll_append, List.lookup_append]
  rfl

end Declaration

namespace Layout
variable {ground : Ground}

/-- What stands at a child's path is made of a header, of the node above it, and nothing else. -/
def MadeAt (ground : Ground) (layout : Layout) (place : ResourcePath) (name : String)
    (node : Node) : Prop :=
  ∃ (above : Node) (header : Header) (basedir : Option FilePath),
    layout place = some above ∧ header.name = name ∧
    header.basedir? ground above = .ok basedir ∧
    node = (header.node ground above 0 basedir).unnumbered

def Made (ground : Ground) (layout : Layout) : Prop :=
  ∀ place name node, layout (place.child name) = some node → layout.MadeAt ground place name node

/-- A layout with what was stated for it added. -/
structure Extends (ground : Ground) (layout : Layout) (stated : List (ResourcePath × Header))
    (grown : Layout) : Prop where
  kept : ∀ {path node}, layout path = some node → grown path = some node
  header : ∀ {path}, layout path = none →
    (grown path).map (·.header) = (stated.lookup path).map some
  made : ∀ {place name node}, layout (place.child name) = none →
    grown (place.child name) = some node → grown.MadeAt ground place name node

namespace Extends
variable {layout mid grown : Layout} {before after : List (ResourcePath × Header)}

theorem refl (ground : Ground) (layout : Layout) : layout.Extends ground [] layout := by
  constructor
  · exact id
  · intro path free
    rw [free]
    rfl
  · intro place name node free stands
    rw [free] at stands
    cases stands

theorem trans (first : layout.Extends ground before mid) (second : mid.Extends ground after grown) :
    layout.Extends ground (before ++ after) grown := by
  constructor
  · exact fun stands => second.kept (first.kept stands)
  · intro path free
    have early := first.header free
    rw [List.lookup_append]
    cases stands : mid path with
    | none =>
      rw [stands, Option.map_none, eq_comm, Option.map_eq_none_iff] at early
      rw [second.header stands, early, Option.none_or]
    | some node =>
      rw [stands, Option.map_some, eq_comm, Option.map_eq_some_iff] at early
      obtain ⟨header, found, same⟩ := early
      rw [second.kept stands, found, Option.some_or, Option.map_some, Option.map_some, same]
  · intro place name node free stands
    cases middle : mid (place.child name) with
    | none => exact second.made middle stands
    | some early =>
      have same := second.kept middle
      rw [stands, Option.some.injEq] at same
      obtain ⟨above, header, basedir, here, rest⟩ := first.made free middle
      exact ⟨above, header, basedir, second.kept here, same ▸ rest⟩

theorem made_of_made (extended : layout.Extends ground before grown) (made : layout.Made ground) :
    grown.Made ground := by
  intro place name node stands
  cases early : layout (place.child name) with
  | none => exact extended.made early stands
  | some old =>
    have same := extended.kept early
    rw [stands, Option.some.injEq] at same
    obtain ⟨above, header, basedir, here, rest⟩ := made _ _ _ early
    exact ⟨above, header, basedir, extended.kept here, same ▸ rest⟩

end Extends

theorem eq_some_of_admitted {layout : Layout} {place : ResourcePath} {declaration : Declaration}
    (admitted : Declaration.admit (layout.node place) declaration = .ok ()) :
    layout place = some (layout.node place) := by
  have module := (Declaration.admit_eq_ok_iff.mp admitted).1
  unfold Layout.node at module ⊢
  cases stands : layout place with
  | none => simp [stands, Node.absent, Node.isModule] at module
  | some node => rfl

/-- What stands after a header was entered: what stood there before, or what the header makes. -/
theorem settle_cases {above node : Node} {present : Option Node} {header : Header}
    (settled : header.settle ground above present = .ok node) :
    (present = some node ∧ node.isModule = true ∧ header.isModule = true ∧
      header.agree ground above node = .ok ()) ∨
    (present = none ∧ ∃ basedir, header.basedir? ground above = .ok basedir ∧
      node = (header.node ground above 0 basedir).unnumbered) := by
  unfold Header.settle at settled
  cases present with
  | some module =>
    simp only at settled
    split at settled
    · next both =>
      rw [Bool.and_eq_true] at both
      cases agreed : header.agree ground above module with
      | error failure => simp [agreed, Except.map] at settled
      | ok agreement =>
        simp only [agreed, Except.map, Except.ok.injEq] at settled
        subst settled
        exact .inl ⟨rfl, both.1, both.2, agreed⟩
    · cases settled
  | none =>
    simp only at settled
    cases given : header.basedir? ground above with
    | error failure => simp [given, Except.map] at settled
    | ok basedir =>
      simp only [given, Except.map, Except.ok.injEq] at settled
      exact .inr ⟨rfl, basedir, rfl, settled.symm⟩

theorem extends_settle {layout : Layout} {place : ResourcePath} {above node : Node}
    {header : Header} (here : layout place = some above)
    (settled : header.settle ground above (layout (place.child header.name)) = .ok node) :
    layout.Extends ground [(place.child header.name, header)]
      (Function.update layout (place.child header.name) (some node)) := by
  rcases settle_cases settled with ⟨present, _⟩ | ⟨free, basedir, given, made⟩
  · rw [Function.update_eq_self_iff.mpr present.symm]
    constructor
    · exact id
    · intro path empty
      have different : path ≠ place.child header.name := by
        rintro rfl
        rw [present] at empty
        cases empty
      rw [empty, List.lookup_cons, beq_false_of_ne different]
      rfl
    · intro _ _ _ empty stands
      rw [empty] at stands
      cases stands
  · have other : ∀ {path}, layout path ≠ none →
        Function.update layout (place.child header.name) (some node) path = layout path := by
      intro path stands
      apply Function.update_of_ne
      rintro rfl
      exact stands free
    constructor
    · intro path old stands
      rw [other (by simp [stands]), stands]
    · intro path empty
      by_cases same : path = place.child header.name
      · rw [same, Function.update_self, List.lookup_cons_self, made]
        simp [Header.node]
      · rw [Function.update_of_ne same, empty, List.lookup_cons, beq_false_of_ne same]
        rfl
    · intro around name new empty stands
      by_cases same : around.child name = place.child header.name
      · rw [same, Function.update_self, Option.some.injEq] at stands
        obtain ⟨rfl, rfl⟩ := ResourcePath.child_inj.mp same
        exact ⟨above, header, basedir, by rw [other (by simp [here]), here], rfl, given,
          stands ▸ made⟩
      · rw [Function.update_of_ne same, empty] at stands
        cases stands

mutual

theorem extends_add {layout grown : Layout} {place : ResourcePath} :
    ∀ declaration, layout.add ground place declaration = .ok grown →
      layout.Extends ground (declaration.stated place) grown
  | ⟨header, nested⟩, done => by
    obtain ⟨admitted, node, settled, below⟩ := add_eq_ok_iff.mp done
    exact (extends_settle (eq_some_of_admitted admitted) settled).trans (extends_addAll nested below)

theorem extends_addAll {layout grown : Layout} {place : ResourcePath} :
    ∀ declarations, layout.addAll ground place declarations = .ok grown →
      layout.Extends ground (Declaration.statedAll place declarations) grown
  | [], done => by
    rw [addAll_nil_eq_ok_iff.mp done]
    exact .refl ground layout
  | declaration :: rest, done => by
    obtain ⟨mid, first, further⟩ := addAll_cons_eq_ok_iff.mp done
    exact (extends_add declaration first).trans (extends_addAll rest further)

end

end Layout

namespace Arena

theorem layout_made_start (ground : Ground) (base : ResourceId) :
    (start ground base).layout.Made ground := by
  intro place name node stands
  simp [ResourcePath.child, ResourcePath.root] at stands

end Arena
end ResourceLibrary
