import ResourceLibrary.Library.Anonymous
import ResourceLibrary.Proofs.Arena.Tree
import ResourceLibrary.Proofs.Text.Spelling

/-!
The path of a coordinate. Main statement: a coordinate that could be read has a path that can be
read, made of the modules of its group and its name.
-/

namespace ResourceLibrary

namespace Text

theorem nil_mem_tail_fields {sep : Char} {cs : List Char} (member : [] ∈ (fields sep cs).tail) :
    cs.getLast? = some sep ∨ [sep, sep] <:+: cs := by
  induction cs with
  | nil => simp [fields] at member
  | cons c cs ih =>
    have later : [] ∈ (fields sep cs).tail →
        (c :: cs).getLast? = some sep ∨ [sep, sep] <:+: c :: cs := by
      intro inTail
      rcases ih inTail with last | pair
      · left
        rw [List.getLast?_cons, last]
        rfl
      · right
        exact List.infix_cons pair
    rw [fields] at member
    split at member
    · next same =>
      subst same
      rw [List.tail_cons] at member
      cases cs with
      | nil => simp
      | cons d ds =>
        by_cases again : d = c
        · right
          rw [again]
          exact ⟨[], ds, rfl⟩
        · apply later
          rw [fields, if_neg again] at member ⊢
          split at member <;> simp_all
    · split at member
      · simp at member
      · next first rest eq => exact later (by rw [eq]; exact member)

theorem nil_not_mem_fields {sep : Char} {cs : List Char} (start : cs.head? ≠ some sep)
    (full : cs ≠ []) (last : cs.getLast? ≠ some sep) (pair : ¬[sep, sep] <:+: cs) :
    [] ∉ fields sep cs := by
  cases cs with
  | nil => exact absurd rfl full
  | cons c cs =>
    have different : c ≠ sep := by simpa using start
    intro member
    have inTail : [] ∈ (fields sep (c :: cs)).tail := by
      rw [fields, if_neg different] at member ⊢
      split at member <;> simp_all
    rcases nil_mem_tail_fields inTail with atEnd | twice
    · exact last atEnd
    · exact pair twice

end Text

namespace Coordinate

structure Placed (coordinate : Coordinate) : Prop where
  slash : '/' ∉ coordinate.name.toList
  start : (coordinate.group.toList ++ '/' :: coordinate.name.toList).head? ≠ some '/'
  full : [] ∉ Text.fields '/' (coordinate.group.toList ++ '/' :: coordinate.name.toList)

theorem Parts.Legible.placed {parts : Parts} (legible : parts.Legible) :
    parts.coordinate.Placed := by
  have start : (parts.group ++ '/' :: parts.name).head? ≠ some '/' := by
    intro leading
    obtain ⟨rest, same⟩ := List.head?_eq_some_iff.mp leading
    have pair : [':', '/'] <:+: parts.specific := ⟨parts.kind, rest, by simp [Parts.specific, same]⟩
    rw [← Text.holdsPair_iff, legible.joint] at pair
    cases pair
  have full : [] ∉ Text.fields '/' (parts.group ++ '/' :: parts.name) := by
    refine Text.nil_not_mem_fields start (by simp) ?_ ?_
    · intro trailing
      rw [← List.singleton_append, ← List.append_assoc,
        List.getLast?_append_of_ne_nil _ legible.name.1] at trailing
      exact legible.name.2 (List.mem_of_getLast? trailing)
    · have clear := legible.twice
      rw [← Bool.not_eq_true, Text.holdsPair_iff] at clear
      exact fun pair => clear (pair.trans ⟨parts.kind ++ [':'], [], by simp [Parts.specific]⟩)
  constructor
  · simpa [Parts.coordinate, ofParts] using legible.name.2
  · simpa [Parts.coordinate, ofParts] using start
  · simpa [Parts.coordinate, ofParts] using full

theorem placed_of_parse {urn : String} {coordinate : Coordinate}
    (read : parse urn = .ok coordinate) : coordinate.Placed := by
  obtain ⟨parts, legible, _, _, rfl⟩ := parse_eq_ok_iff.mp read
  exact legible.placed

def names (coordinate : Coordinate) : List String := coordinate.modules ++ [coordinate.name]

theorem modules_eq_split {coordinate : Coordinate} (placed : coordinate.Placed) :
    coordinate.modules = Text.split '/' coordinate.group := by
  have full := placed.full
  rw [Text.fields_append] at full
  refine List.filter_eq_self.mpr fun part member => ?_
  obtain ⟨field, inFields, rfl⟩ := List.mem_map.mp member
  have : field ≠ [] := by
    rintro rfl
    exact full (List.mem_append_left _ inFields)
  simpa using this

theorem fields_of_placed {coordinate : Coordinate} (placed : coordinate.Placed) :
    Text.fields '/' (coordinate.group.toList ++ '/' :: coordinate.name.toList) =
      coordinate.names.map String.toList := by
  rw [Text.fields_append, Text.fields_of_not_mem placed.slash, names, modules_eq_split placed,
    Text.split]
  simp [Function.comp_def]

theorem names_isSegment {coordinate : Coordinate} (placed : coordinate.Placed) :
    ∀ name ∈ coordinate.names, ResourcePath.IsSegment name := by
  intro name member
  have field : name.toList ∈ coordinate.names.map String.toList := List.mem_map_of_mem member
  rw [← fields_of_placed placed] at field
  refine ⟨?_, Text.not_mem_of_mem_fields field⟩
  rintro rfl
  exact placed.full field

theorem parse_path {coordinate : Coordinate} (placed : coordinate.Placed) :
    ResourcePath.parse coordinate.path = .ok ⟨coordinate.names⟩ := by
  have grouped : coordinate.group ≠ "" := by
    intro empty
    apply placed.start
    rw [empty]
    rfl
  have text : coordinate.path.toList =
      coordinate.group.toList ++ '/' :: coordinate.name.toList := by
    simp [path, grouped, String.toList_append]
  apply ResourcePath.parse_eq_ok (by simp [names]) (names_isSegment placed)
  rw [ResourcePath.body_of_not_slash (by rw [text]; exact placed.start), text,
    ← fields_of_placed placed, Text.joined_fields]

end Coordinate
end ResourceLibrary
