import ResourceLibrary.Proofs.Text.Segments
import ResourceLibrary.Proofs.Text.Spelling

/-!
References to products, as text: a scheme, the name of a product and the path of a resource. Main
statement: under any scheme such a reference reads back as the name and the path, if none of the
marks that it is cut at stands in them.
-/

namespace ResourceLibrary

def Text.Markless (text : String) : Prop := ∀ mark ∈ [':', '!', '#', '/'], mark ∉ text.toList

theorem Text.holdsPair_of_single {first second : Char} {front back : List Char}
    (one : first ∉ front) (two : first ∉ back) (start : back.head? ≠ some second) :
    Text.holdsPair first second (front ++ first :: back) = false := by
  rw [Text.holdsPair_append one]
  cases back with
  | nil => rfl
  | cons c rest =>
    have behind : Text.holdsPair first second (c :: rest) = false := by
      rw [← List.append_nil (c :: rest), Text.holdsPair_append two]
      rfl
    have other : c ≠ second := by simpa using start
    simp [Text.holdsPair, behind, other]

namespace ResourcePath
variable {path : ResourcePath}

theorem exists_group (long : 2 ≤ path.length) :
    ∃ front name, path.segments = front ++ [name] ∧
      path.text.toList = Text.joined '/' (front.map String.toList) ++ '/' :: name.toList := by
  obtain ⟨front, name, segments⟩ : ∃ front name, path.segments = front ++ [name] := by
    rcases List.eq_nil_or_concat' path.segments with none | some
    · rw [length, none] at long
      contradiction
    · exact some
  have above : front ≠ [] := by
    rintro rfl
    rw [length, segments] at long
    contradiction
  refine ⟨front, name, segments, ?_⟩
  rw [text, Text.toList_intercalate, segments, List.map_append,
    Text.joined_append (by simpa using above) (by simp)]
  rfl

variable (clear : ∀ segment ∈ path.segments, Text.Markless segment)
include clear

theorem not_mem_text {mark : Char} (among : mark ∈ [':', '!', '#', '/']) (other : mark ≠ '/') :
    mark ∉ path.text.toList := by
  intro member
  rw [text, Text.toList_intercalate] at member
  obtain ⟨_, part, inside⟩ := (Text.mem_joined member).resolve_left other
  obtain ⟨segment, here, rfl⟩ := List.mem_map.mp part
  exact clear segment here mark among inside

theorem nil_not_mem_fields_text (some : path.segments ≠ [])
    (full : ∀ segment ∈ path.segments, segment ≠ "") :
    [] ∉ Text.fields '/' path.text.toList := by
  have fields : Text.fields '/' path.text.toList = path.segments.map String.toList := by
    rw [text, Text.toList_intercalate]
    refine Text.fields_joined (by simpa using some) fun part member => ?_
    obtain ⟨segment, here, rfl⟩ := List.mem_map.mp member
    exact clear segment here '/' (by simp)
  rw [fields]
  intro member
  obtain ⟨segment, here, empty⟩ := List.mem_map.mp member
  exact full segment here (by simpa using empty)

end ResourcePath

namespace Coordinate

theorem exists_parts_of_path {scheme kind : String} {path : ResourcePath} (named : scheme ≠ "")
    (clear : ∀ text ∈ scheme :: kind :: path.segments, Text.Markless text)
    (full : ∀ segment ∈ path.segments, segment ≠ "") (long : 2 ≤ path.length) :
    ∃ parts : Parts, parts.Legible ∧
      parts.spelling = (scheme ++ ":" ++ kind ++ ":" ++ path.text).toList ∧
      '!' ∉ parts.spelling ∧ parts.coordinate.kind = kind ∧ parts.coordinate.path = path.text := by
  simp only [List.mem_cons, forall_eq_or_imp] at clear
  obtain ⟨schemed, typed, clear⟩ := clear
  obtain ⟨front, name, segments, inner⟩ := ResourcePath.exists_group long
  have last : name ∈ path.segments := by simp [segments]
  have noneEmpty := ResourcePath.nil_not_mem_fields_text clear (List.ne_nil_of_mem last) full
  have start : path.text.toList.head? ≠ some '/' := by
    intro leading
    obtain ⟨rest, same⟩ := List.head?_eq_some_iff.mp leading
    rw [same, Text.fields, if_pos rfl] at noneEmpty
    exact noneEmpty List.mem_cons_self
  have colon : ':' ∉ path.text.toList := ResourcePath.not_mem_text clear (by decide) (by decide)
  have hash : '#' ∉ path.text.toList := ResourcePath.not_mem_text clear (by decide) (by decide)
  have entry : '!' ∉ path.text.toList := ResourcePath.not_mem_text clear (by decide) (by decide)
  let parts : Parts :=
    ⟨scheme.toList, kind.toList, Text.joined '/' (front.map String.toList), name.toList, none⟩
  have specific : parts.specific = kind.toList ++ ':' :: path.text.toList := by
    rw [inner]
    rfl
  have spelling : parts.spelling = scheme.toList ++ ':' :: parts.specific := by
    simp [Parts.spelling, Parts.front, parts]
  have legible : parts.Legible := by
    refine ⟨⟨by simpa [parts] using named, schemed ':' (by simp)⟩, ?hash, typed ':' (by simp),
      ⟨by simpa [parts] using full name last, clear name last '/' (by simp)⟩, ?twice, ?joint,
      by simp [parts]⟩
    case hash => simp [specific, typed '#', hash]
    case twice =>
      -- Two slashes in a row would stand around an empty segment.
      have kept : '/' ∉ kind.toList ++ [':'] := by simp [typed '/']
      rw [specific, List.append_cons, Text.holdsPair_append kept, ← Bool.not_eq_true,
        Text.holdsPair_iff]
      exact Text.not_twice_of_fields noneEmpty
    case joint =>
      -- The one colon left stands in front of the first segment.
      rw [specific]
      exact Text.holdsPair_of_single (typed ':' (by simp)) colon start
  refine ⟨parts, legible, ?_, ?_, ?_, ?_⟩
  · simp [spelling, specific]
  · simp [spelling, specific, schemed '!', typed '!', entry]
  · simp [Parts.coordinate, ofParts, parts]
  · have group := legible.group_ne_nil
    rw [← String.toList_inj, inner]
    simp_all [Coordinate.path, Parts.coordinate, ofParts, parts]

theorem parseAny_of_path {scheme kind : String} {path : ResourcePath} (named : scheme ≠ "")
    (clear : ∀ text ∈ scheme :: kind :: path.segments, Text.Markless text)
    (full : ∀ segment ∈ path.segments, segment ≠ "") (long : 2 ≤ path.length) :
    ∃ coordinate, parseAny (scheme ++ ":" ++ kind ++ ":" ++ path.text) = .ok coordinate ∧
      coordinate.kind = kind ∧ coordinate.path = path.text := by
  obtain ⟨parts, legible, spelled, entry, typed, placed⟩ :=
    exists_parts_of_path named clear full long
  refine ⟨parts.coordinate, ?_, typed, placed⟩
  rw [parseAny, ← spelled, withoutEntry_of_not_mem entry, readParts_spelling legible]

end Coordinate
end ResourceLibrary
