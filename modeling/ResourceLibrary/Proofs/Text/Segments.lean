import ResourceLibrary.ResourcePath

/-!
Paths as text. Main statement: the text of a path reads back as the path, if it has segments and
none of them is empty or holds a slash.
-/

namespace ResourceLibrary

namespace Text

theorem fields_append (sep : Char) (first rest : List Char) :
    fields sep (first ++ sep :: rest) = fields sep first ++ fields sep rest := by
  induction first with
  | nil => simp [fields]
  | cons c cs ih =>
    rw [List.cons_append, fields, fields]
    split
    · rw [ih, List.cons_append]
    · rw [ih]
      cases parts : fields sep cs with
      | nil => exact absurd parts (fields_ne_nil sep cs)
      | cons part further => rfl

theorem fields_joined {sep : Char} {parts : List (List Char)} (some : parts ≠ [])
    (clear : ∀ part ∈ parts, sep ∉ part) : fields sep (joined sep parts) = parts := by
  induction parts with
  | nil => exact absurd rfl some
  | cons part rest ih =>
    have here := clear part (by simp)
    cases rest with
    | nil => exact fields_of_not_mem here
    | cons next further =>
      have further := ih (by simp) fun other member => clear other (by simp [member])
      rw [joined, fields_append, fields_of_not_mem here, further, List.singleton_append]
      simp

theorem joined_append {sep : Char} {front back : List (List Char)} (one : front ≠ [])
    (two : back ≠ []) :
    joined sep (front ++ back) = joined sep front ++ sep :: joined sep back := by
  induction front with
  | nil => exact absurd rfl one
  | cons part rest ih =>
    cases rest with
    | nil =>
      obtain ⟨next, further, rfl⟩ := List.exists_cons_of_ne_nil two
      rfl
    | cons next further =>
      have behind := ih (by simp)
      simp only [List.cons_append, joined] at behind ⊢
      rw [behind, List.append_assoc, List.cons_append]

theorem mem_joined {sep c : Char} {parts : List (List Char)} (member : c ∈ joined sep parts) :
    c = sep ∨ ∃ part ∈ parts, c ∈ part := by
  induction parts with
  | nil => cases member
  | cons part rest ih =>
    cases rest with
    | nil => exact .inr ⟨part, by simp, member⟩
    | cons next further =>
      simp only [joined, List.mem_append, List.mem_cons] at member
      rcases member with here | rfl | later
      · exact .inr ⟨part, by simp, here⟩
      · exact .inl rfl
      · refine (ih later).imp_right ?_
        rintro ⟨other, among, inside⟩
        exact ⟨other, List.mem_cons_of_mem _ among, inside⟩

theorem not_twice_of_fields {sep : Char} {cs : List Char} (full : [] ∉ fields sep cs) :
    ¬[sep, sep] <:+: cs := by
  rintro ⟨front, back, rfl⟩
  apply full
  rw [List.append_assoc, List.cons_append, fields_append, List.singleton_append, fields, if_pos rfl]
  simp

theorem toList_intercalate (parts : List String) :
    ("/".intercalate parts).toList = joined '/' (parts.map String.toList) := by
  induction parts with
  | nil => rfl
  | cons part rest ih =>
    cases rest with
    | nil => simp [joined]
    | cons next further =>
      rw [String.intercalate_cons_cons, String.toList_append, String.toList_append, ih]
      simp [joined]

theorem split_intercalate {parts : List String} (some : parts ≠ [])
    (clear : ∀ part ∈ parts, '/' ∉ part.toList) :
    split '/' ("/".intercalate parts) = parts := by
  have apart : ∀ part ∈ parts.map String.toList, '/' ∉ part := by
    intro part member
    obtain ⟨piece, inside, rfl⟩ := List.mem_map.mp member
    exact clear piece inside
  rw [split, toList_intercalate, fields_joined (by simpa using some) apart]
  simp [Function.comp_def]

theorem split_eq_iff {text : String} {parts : List String} :
    split '/' text = parts ↔
      parts ≠ [] ∧ (∀ part ∈ parts, '/' ∉ part.toList) ∧ text = "/".intercalate parts := by
  constructor
  · rintro rfl
    refine ⟨by simpa [split] using fields_ne_nil '/' text.toList, ?_, ?_⟩
    · intro part member
      obtain ⟨field, inside, rfl⟩ := List.mem_map.mp member
      simpa using not_mem_of_mem_fields inside
    · apply String.toList_injective
      rw [toList_intercalate, split, List.map_map]
      simp [Function.comp_def, joined_fields]
  · rintro ⟨some, clear, rfl⟩
    exact split_intercalate some clear

end Text

namespace ResourcePath

def IsSegment (name : String) : Prop := name ≠ "" ∧ '/' ∉ name.toList

theorem body_of_not_slash {reference : String} (start : reference.toList.head? ≠ some '/') :
    body reference = reference.toList := by
  unfold body
  split
  · next eq => simp [eq] at start
  · rfl

theorem parse_eq_ok {reference : String} {names : List String} (some : names ≠ [])
    (segments : ∀ name ∈ names, IsSegment name)
    (text : body reference = Text.joined '/' (names.map String.toList)) :
    parse reference = .ok ⟨names⟩ := by
  have parts : Text.fields '/' (body reference) = names.map String.toList := by
    rw [text]
    apply Text.fields_joined (by simpa using some)
    intro part member
    obtain ⟨name, inNames, rfl⟩ := List.mem_map.mp member
    exact (segments name inNames).2
  have full : ¬(body reference).isEmpty := by
    intro empty
    rw [List.isEmpty_iff.mp empty] at parts
    cases names with
    | nil => exact some rfl
    | cons name rest =>
      have := (segments name (by simp)).1
      simp_all [Text.fields]
  have noneEmpty : (names.map String.toList).any List.isEmpty = false := by
    rw [List.any_eq_false]
    intro part member
    obtain ⟨name, inNames, rfl⟩ := List.mem_map.mp member
    have := (segments name inNames).1
    simpa [List.isEmpty_iff] using this
  rw [parse, if_neg full]
  simp only [parts, noneEmpty, Bool.false_eq_true, ↓reduceIte, List.map_map]
  simp [Function.comp_def]

theorem parse_eq_ok_iff {reference : String} {path : ResourcePath} :
    parse reference = .ok path ↔ (∀ part ∈ Text.fields '/' (body reference), part ≠ []) ∧
      path = ⟨(Text.fields '/' (body reference)).map String.ofList⟩ := by
  unfold parse
  split
  · next empty =>
    rw [List.isEmpty_iff.mp empty]
    simp [Text.fields]
  · simp only
    split
    · next hollow =>
      obtain ⟨part, member, none⟩ := List.any_eq_true.mp hollow
      constructor
      · intro read
        cases read
      · rintro ⟨full, _⟩
        exact absurd (List.isEmpty_iff.mp none) (full part member)
    · next full =>
      have parts : ∀ part ∈ Text.fields '/' (body reference), part ≠ [] := by
        rintro part member rfl
        exact full (List.any_eq_true.mpr ⟨[], member, rfl⟩)
      rw [Except.ok.injEq, and_iff_right parts, eq_comm]

theorem body_ne_nil_of_parse {reference : String} {path : ResourcePath}
    (read : parse reference = .ok path) : body reference ≠ [] := by
  intro empty
  have full := (parse_eq_ok_iff.mp read).1
  rw [empty] at full
  exact full [] (by simp [Text.fields]) rfl

theorem segments_ne_nil_of_parse {reference : String} {path : ResourcePath}
    (read : parse reference = .ok path) : path.segments ≠ [] := by
  obtain ⟨_, rfl⟩ := parse_eq_ok_iff.mp read
  exact fun none => Text.fields_ne_nil _ _ (List.map_eq_nil_iff.mp none)

theorem body_append {reference : String} (some : body reference ≠ []) (rest : String) :
    body (reference ++ rest) = body reference ++ rest.toList := by
  unfold body at some ⊢
  rw [String.toList_append]
  cases chars : reference.toList with
  | nil => exact absurd (by rw [chars]) some
  | cons c cs =>
    rw [List.cons_append]
    split <;> simp_all

theorem parse_append {first second : String} {front back : ResourcePath}
    (one : parse first = .ok front) (two : parse second = .ok back)
    (start : second.toList.head? ≠ some '/') :
    parse (first ++ "/" ++ second) = .ok ⟨front.segments ++ back.segments⟩ := by
  have text : body (first ++ "/" ++ second) = body first ++ '/' :: body second := by
    rw [String.append_assoc, body_append (body_ne_nil_of_parse one), body_of_not_slash start,
      String.toList_append]
    rfl
  obtain ⟨fullFront, rfl⟩ := parse_eq_ok_iff.mp one
  obtain ⟨fullBack, rfl⟩ := parse_eq_ok_iff.mp two
  rw [parse_eq_ok_iff, text, Text.fields_append, List.map_append]
  exact ⟨fun part member => (List.mem_append.mp member).elim (fullFront part) (fullBack part), rfl⟩

theorem parse_text {path : ResourcePath} (some : path.segments ≠ [])
    (segments : ∀ name ∈ path.segments, IsSegment name) : parse path.text = .ok path := by
  apply parse_eq_ok some segments
  have text := Text.toList_intercalate path.segments
  rw [ResourcePath.text, body_of_not_slash, text]
  rw [text]
  cases names : path.segments with
  | nil => exact absurd names some
  | cons name rest =>
    have ⟨full, clear⟩ := segments name (by simp [names])
    cases chars : name.toList with
    | nil => exact absurd (by simpa using chars) full
    | cons c cs =>
      rw [chars, List.mem_cons, not_or] at clear
      cases rest <;> simp [Text.joined, chars, Ne.symm clear.1]

end ResourcePath
end ResourceLibrary
