import ResourceLibrary.Proofs.Text.Normalization

/-!
Paths that are joined. Main statements: a joined path leads where its second part leads from where
the first one leads; and if the second part only goes down, the normal form is that of the first part
with the names of the second one behind it.
-/

namespace ResourceLibrary

namespace Course

theorem exists_names_of_down {parts : List Component} (below : .root ∉ parts)
    (down : .parent ∉ parts) :
    ∃ names : List String, parts.filter (· ≠ .current) = names.map .name ∧
      ∀ course, parts.foldl step course = { course with names := names.reverse ++ course.names } := by
  induction parts with
  | nil => exact ⟨[], rfl, fun course => rfl⟩
  | cons part rest ih =>
    rw [List.mem_cons, not_or] at below down
    obtain ⟨names, kept, further⟩ := ih below.2 down.2
    cases part with
    | root => exact absurd rfl below.1
    | parent => exact absurd rfl down.1
    | current => exact ⟨names, by simpa using kept, further⟩
    | name text =>
      refine ⟨text :: names, by simpa using kept, fun course => ?_⟩
      rw [List.foldl_cons, further]
      simp [step]

theorem reverse_kept_down (course : Course) (names : List String) :
    ({ course with names := names.reverse ++ course.names } : Course).kept.reverse =
      course.kept.reverse ++ names.map .name := by
  rw [reverse_kept, reverse_kept]
  simp

end Course

namespace FilePath

def inner (path : FilePath) : List Component := (Text.split '/' path.text).filterMap component?

theorem inner_of_absolute {path : FilePath} (absolute : path.isAbsolute = true) :
    path.inner = path.pieces.filterMap component? := by
  obtain ⟨rest, chars⟩ := List.head?_eq_some_iff.mp (of_decide_eq_true absolute)
  rw [inner, pieces, absolute, if_pos rfl, Text.split, chars, Text.fields, if_pos rfl]
  rfl

theorem inner_of_relative {path : FilePath} (relative : path.isAbsolute = false) :
    path.inner = path.pieces.filterMap component? := by
  rw [inner, pieces, relative, if_neg Bool.false_ne_true]

theorem foldl_step_components (path : FilePath) (course : Course) :
    path.components.foldl Course.step course =
      path.inner.foldl Course.step (if path.isAbsolute then ⟨true, 0, []⟩ else course) := by
  cases absolute : path.isAbsolute with
  | true =>
    rw [inner_of_absolute absolute, components, absolute, if_pos rfl]
    rfl
  | false =>
    rw [inner_of_relative absolute, components, absolute]
    simp only [Bool.false_eq_true, if_false]
    split
    · next rest pieces =>
      rw [pieces]
      rfl
    · rfl

section
variable {path other : FilePath} (relative : other.isAbsolute = false) (some : path.text ≠ "")
include relative some

theorem exists_text_join :
    ∃ front, (path.join other).text.toList = front ++ '/' :: other.text.toList ∧
      (path.text.toList = front ∨ path.text.toList = front ++ ['/']) := by
  have full : (other.isAbsolute || path.text.isEmpty) = false := by
    rw [relative, Bool.false_or, Bool.eq_false_iff]
    simpa using some
  rw [join, full, if_neg Bool.false_ne_true]
  split
  · next slash =>
    obtain ⟨front, chars⟩ := List.getLast?_eq_some_iff.mp slash
    exact ⟨front, by simp [chars], .inr chars⟩
  · exact ⟨path.text.toList, by simp, .inl rfl⟩

theorem isAbsolute_join : (path.join other).isAbsolute = path.isAbsolute := by
  obtain ⟨front, text, chars⟩ := exists_text_join relative some
  rw [isAbsolute, isAbsolute, text]
  rcases chars with same | slash
  · have full : path.text.toList ≠ [] := by simpa using some
    obtain ⟨c, rest, shape⟩ := List.exists_cons_of_ne_nil full
    rw [← same, shape]
    rfl
  · rw [slash]
    cases front <;> rfl

theorem inner_join : (path.join other).inner = path.inner ++ other.inner := by
  obtain ⟨front, text, chars⟩ := exists_text_join relative some
  simp only [inner, Text.split]
  rw [text, Text.fields_append, List.map_append, List.filterMap_append]
  rcases chars with same | slash
  · rw [same]
  · have ending : (Text.fields '/' []).map String.ofList = [""] := rfl
    rw [slash, Text.fields_append, List.map_append, List.filterMap_append, ending]
    simp [component?]

end

theorem foldl_step_join (path other : FilePath) (course : Course) :
    (path.join other).components.foldl Course.step course =
      other.components.foldl Course.step (path.components.foldl Course.step course) := by
  by_cases absolute : other.isAbsolute = true
  · have alone : path.join other = other := by simp [join, absolute]
    rw [alone, foldl_step_components other, foldl_step_components other, absolute]
    rfl
  · rw [Bool.not_eq_true] at absolute
    by_cases empty : path.text = ""
    · have alone : path.join other = other := by simp [join, empty]
      have nothing : path = ⟨""⟩ := congrArg FilePath.mk empty
      rw [alone, nothing]
      rfl
    · rw [foldl_step_components, isAbsolute_join absolute empty, inner_join absolute empty,
        List.foldl_append, ← foldl_step_components, foldl_step_components other, absolute]
      rfl

theorem location_join (path other : FilePath) (directory : List String) :
    (path.join other).location directory = other.location (path.location directory) := by
  rw [location_eq_reach, Course.of, foldl_step_join, Course.reach_foldl, Course.reach_foldl]
  rfl

/-- A part that only goes down leaves the normal form of what it is joined to in front. -/
theorem components_normalize_join {path other : FilePath} {names : List String}
    (down : ∀ course, other.components.foldl Course.step course =
      { course with names := names.reverse ++ course.names }) :
    (path.join other).normalize.components = path.normalize.components ++ names.map .name := by
  rw [components_normalize, components_normalize, Course.normalized_eq_reverse_kept,
    Course.normalized_eq_reverse_kept, Course.of, foldl_step_join, down, Course.reverse_kept_down]
  rfl

theorem location_of_down {other : FilePath} {names : List String}
    (down : ∀ course, other.components.foldl Course.step course =
      { course with names := names.reverse ++ course.names }) (directory : List String) :
    other.location directory = names.reverse ++ directory := by
  rw [location_eq_reach, Course.of, down]
  simp [Course.reach, Course.start]

end FilePath
end ResourceLibrary
