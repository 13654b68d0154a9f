import ResourceLibrary.Proofs.Value.Rearranged
import ResourceLibrary.Toml.Section

/-!
Changes of sections below a way. Main statements: one change after the other below a way is their
composition below it, and a change below a longer way is one below its front part.
-/

namespace ResourceLibrary.Toml

theorem any_key_eq {sections : Sections} {key : String} :
    sections.any (·.1 == key) = (sections.lookup key).isSome := by
  induction sections with
  | nil => rfl
  | cons entry rest ih =>
    rw [List.any_cons, ih, Table.lookup_cons_eq]
    by_cases same : key = entry.1
    · simp [same]
    · simp [same, Ne.symm same]

namespace Sections
variable {sections : Sections} {key : String}

theorem set_of_lookup_eq_none (free : sections.lookup key = none) (entry : Section) :
    sections.set key entry = sections ++ [(key, entry)] := by
  rw [set, any_key_eq, free]
  rfl

theorem set_of_isSome (there : (sections.lookup key).isSome = true) (entry : Section) :
    sections.set key entry =
      sections.map fun present => if present.1 == key then (key, entry) else present := by
  rw [set, any_key_eq, if_pos there]

theorem set_append_self (free : sections.lookup key = none) (first second : Section) :
    Sections.set (sections ++ [(key, first)]) key second = sections ++ [(key, second)] := by
  have absent : ∀ entry ∈ sections, entry.1 ≠ key := by
    intro entry member same
    exact lookup_eq_none_iff_keys.mp free (List.mem_map.mpr ⟨entry, member, same⟩)
  have kept : (sections.map fun present => if present.1 == key then (key, second) else present) =
      sections := by
    rw [List.map_congr_left fun entry member => by
      rw [if_neg (by simpa using absent entry member)], List.map_id']
  rw [set, if_pos (by simp), List.map_append, kept]
  simp

theorem lookup_set_self (entry : Section) : (sections.set key entry).lookup key = some entry := by
  cases there : sections.lookup key with
  | none => rw [set_of_lookup_eq_none there, List.lookup_append, there, List.lookup_cons_self,
      Option.none_or]
  | some old =>
    rw [set_of_isSome (by rw [there]; rfl)]
    induction sections with
    | nil => cases there
    | cons present rest ih =>
      rw [Table.lookup_cons_eq] at there
      rw [List.map_cons, Table.lookup_cons_eq]
      by_cases same : present.1 = key
      · simp [same]
      · rw [if_neg (Ne.symm same)] at there
        simpa [same, Ne.symm same] using ih there

theorem set_set (first second : Section) :
    (sections.set key first).set key second = sections.set key second := by
  cases there : sections.lookup key with
  | none => rw [set_of_lookup_eq_none there, set_of_lookup_eq_none there, set_append_self there]
  | some old =>
    have present : (sections.lookup key).isSome = true := by rw [there]; rfl
    rw [set_of_isSome (by rw [lookup_set_self]; rfl), set_of_isSome present,
      set_of_isSome present, List.map_map]
    apply List.map_congr_left
    intro entry _
    by_cases same : entry.1 = key <;> simp [same]

end Sections

theorem within_bind (first second : Sections → Option Sections) (way : List String)
    (sections : Sections) :
    within (fun inner => (first inner).bind second) way sections =
      (within first way sections).bind (within second way) := by
  induction way generalizing sections with
  | nil => rfl
  | cons name rest ih =>
    rw [within, within]
    cases there : sections.lookup name with
    | none =>
      simp only [ih]
      cases within first rest [] with
      | none => rfl
      | some inner =>
        simp only [bind, Option.bind_some, within, Sections.lookup_set_self, Sections.set_set, pure]
    | some entry =>
      cases entry with
      | value _ => rfl
      | table origin inner =>
        simp only [ih]
        cases within first rest inner with
        | none => rfl
        | some changed =>
          simp only [bind, Option.bind_some, within, Sections.lookup_set_self, Sections.set_set,
            pure]
      | tables rows =>
        cases rows with
        | nil => rfl
        | cons row rows =>
          simp only [ih]
          cases within first rest row with
          | none => rfl
          | some changed =>
            simp only [bind, Option.bind_some, within, Sections.lookup_set_self, Sections.set_set,
              pure]

theorem within_append (change : Sections → Option Sections) (front back : List String) :
    within change (front ++ back) = within (within change back) front := by
  induction front with
  | nil => rfl
  | cons name rest ih =>
    funext sections
    rw [List.cons_append, within, within]
    simp only [ih]

def Stands (way : List String) (sections : Sections) : Prop := within some way sections = some sections

theorem stands_nil (sections : Sections) : Stands [] sections := rfl

theorem stands_of_within {change : Sections → Option Sections} {way : List String}
    {sections changed : Sections} (done : within change way sections = some changed) :
    Stands way changed := by
  have again := within_bind change some way sections
  simp only [Option.bind_fun_some, done, Option.bind_some] at again
  exact again.symm

section
variable {key : String} {sections opened : Sections}

theorem stands_of_openTable (done : openTable key sections = some opened) :
    Stands [key] opened := by
  unfold openTable at done
  split at done
  · next free =>
    cases done
    simp [Stands, within, List.lookup_append, free, Sections.set_append_self free]
  · cases done
    simp [Stands, within, Sections.lookup_set_self, Sections.set_set]
  · cases done

theorem stands_of_openRow (done : openRow key sections = some opened) : Stands [key] opened := by
  unfold openRow at done
  split at done
  · next free =>
    cases done
    simp [Stands, within, List.lookup_append, free, Sections.set_append_self free]
  · cases done
    simp [Stands, within, Sections.lookup_set_self, Sections.set_set]
  · cases done

variable (free : sections.lookup key = none) {fill : Sections → Option Sections} {inner : Sections}
  (filled : fill [] = some inner)
include free filled

theorem openTable_bind :
    (openTable key sections).bind (within fill [key]) =
      some (sections ++ [(key, .table .header inner)]) := by
  simp [openTable, free, within, List.lookup_append, filled, Sections.set_append_self free]

def Sections.withRows (sections : Sections) (key : String) (rows : List Sections) : Sections :=
  if rows.isEmpty then sections else sections ++ [(key, .tables rows)]

omit free filled in
theorem Sections.withRows_of_ne_nil {rows : List Sections} (full : rows ≠ []) :
    sections.withRows key rows = sections ++ [(key, .tables rows)] := by
  rw [withRows, if_neg (by simpa using full)]

theorem openRow_bind (rows : List Sections) :
    (openRow key (sections.withRows key rows)).bind (within fill [key]) =
      some (sections.withRows key (inner :: rows)) := by
  cases rows with
  | nil =>
    simp [openRow, Sections.withRows, free, within, List.lookup_append, filled,
      Sections.set_append_self free]
  | cons row rows =>
    simp [openRow, Sections.withRows, free, within, List.lookup_append, filled,
      Sections.set_append_self free]

end

end ResourceLibrary.Toml
