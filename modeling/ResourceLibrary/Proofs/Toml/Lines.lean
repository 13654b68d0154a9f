import ResourceLibrary.Proofs.Toml.Keys

/-!
Lines written and read again. Main statement: headers, assignments of plain values and blank lines
are read one by one from the text that they are written as, whatever text follows.
-/

namespace ResourceLibrary.Toml

/-- A text is read as these lines, whatever follows it. It has no mark of its byte order. -/
structure Writes (text : List Char) (lines : List Line) : Prop where
  reads : ∀ count rest,
    lines? (count + lines.length) (text ++ rest) = (lines? count rest).map (lines ++ ·)
  short : lines.length ≤ text.length
  unmarked : text.head? ≠ some byteOrderMark

namespace Writes
variable {text other : List Char} {lines more : List Line}

theorem nil : Writes [] [] := ⟨by simp, by simp, by simp⟩

theorem append (first : Writes text lines) (second : Writes other more) :
    Writes (text ++ other) (lines ++ more) := by
  constructor
  · intro count rest
    rw [List.append_assoc, List.length_append, ← Nat.add_assoc, Nat.add_right_comm, first.reads,
      second.reads, Option.map_map]
    simp [Function.comp_def]
  · rw [List.length_append, List.length_append]
    exact Nat.add_le_add first.short second.short
  · cases text with
    | nil => exact second.unmarked
    | cons c text => exact first.unmarked

theorem of_line {c : Char} {line : Line} (start : c ≠ byteOrderMark)
    (read : ∀ rest, ∃ mid, line? (skipBlanks (c :: text ++ rest)) = some (line, mid) ∧
      lineEnd? mid = some rest) : Writes (c :: text) [line] := by
  constructor
  · intro count rest
    obtain ⟨mid, here, ends⟩ := read rest
    rw [List.length_singleton, lines?, if_neg (by simp)]
    simp only [bind, Option.bind, here, ends, pure]
    cases lines? count rest <;> rfl
  · simp
  · simpa using start

end Writes

theorem Writes.lines?_eq {text : List Char} {lines : List Line} (writes : Writes text lines) :
    lines? (text.length + 1) text = some lines := by
  obtain ⟨more, enough⟩ : ∃ more, text.length + 1 = more + lines.length :=
    Nat.exists_eq_add_of_le' (Nat.le_succ_of_le writes.short)
  have whole := writes.reads more []
  rw [List.append_nil] at whole
  rw [enough, whole]
  cases more <;> simp [lines?]

theorem lineEnd?_feed (rest : List Char) : lineEnd? ('\n' :: rest) = some rest := rfl

theorem writes_void : Writes ['\n'] [.void] :=
  .of_line (by decide) fun rest => ⟨'\n' :: rest, rfl, rfl⟩

inductive Plain : Value → Prop
  | text (content : String) : Plain (.text content)
  | bool (flag : Bool) : Plain (.bool flag)
  | empty : Plain (.list [])

theorem Plain.skipBlanks_inline {value : Value} (plain : Plain value) (rest : List Char) :
    skipBlanks ((inline value).toList ++ rest) = (inline value).toList ++ rest := by
  cases plain with
  | text content =>
    obtain ⟨c, later, written, mark⟩ := exists_quote_eq content.toList
    rw [inline, String.toList_ofList, written, List.cons_append]
    rcases mark with rfl | rfl <;> rfl
  | bool flag => cases flag <;> rfl
  | empty => rfl

theorem Plain.value?_inline {value : Value} (plain : Plain value) {steps depth : Nat}
    (enough : 2 ≤ steps) (inner : 0 < depth) (rest : List Char) :
    value? steps depth ((inline value).toList ++ '\n' :: rest) = some (value, '\n' :: rest) := by
  obtain ⟨steps, rfl⟩ := Nat.exists_eq_add_of_le' enough
  obtain ⟨depth, rfl⟩ := Nat.exists_eq_add_one.mpr inner
  cases plain with
  | text content =>
    have read := text?_quote content.toList ('\n' :: rest) (by simp) (by simp)
    obtain ⟨c, later, written, mark⟩ := exists_quote_eq content.toList
    rw [written, List.cons_append] at read
    rw [inline, String.toList_ofList, written, List.cons_append]
    rcases mark with rfl | rfl <;> simp [value?, read]
  | bool flag => cases flag <;> rfl
  | empty => rfl

theorem line?_of_key {c : Char} {text rest after : List Char} {way : List String} {value : Value}
    (other : c ∉ ['[', '#', '\n', '\r'])
    (key : key? nestingLimit (c :: text) = some (way, '=' :: rest))
    (read : value? (2 * rest.length + 2) nestingLimit (skipBlanks rest) = some (value, after)) :
    line? (c :: text) = some (.assignment way value, after) := by
  rw [line?.eq_def]
  split <;> simp_all

theorem writes_assignment (key : String) {value : Value} (plain : Plain value) :
    Writes (keyText key ++ " = " ++ inline value ++ "\n").toList [.assignment [key] value] := by
  obtain ⟨c, later, written, other⟩ := exists_quoteKey_eq key.toList
  simp only [List.mem_cons, List.not_mem_nil, or_false, not_or] at other
  have text : (keyText key ++ " = " ++ inline value ++ "\n").toList =
      c :: (later ++ ' ' :: '=' :: ' ' :: ((inline value).toList ++ ['\n'])) := by
    simp [written]
  rw [text]
  refine .of_line (by simp [other]) fun rest => ⟨'\n' :: rest, ?_, lineEnd?_feed rest⟩
  have read := key?_wayText (show [key] ≠ [] by simp) (show 1 ≤ nestingLimit by decide)
    (' ' :: '=' :: ' ' :: ((inline value).toList ++ '\n' :: rest)) (by simp [isBareChar])
    (by simp [skipBlanks, isBlank])
  rw [show wayText [key] = keyText key by simp [wayText], toList_keyText, written,
    List.cons_append] at read
  rw [List.cons_append, skipBlanks_of_head _ (by simp [other]) (by simp [other])]
  refine line?_of_key (by simp [other]) (by simpa [skipBlanks, isBlank] using read) ?_
  rw [show skipBlanks (' ' :: ((inline value).toList ++ '\n' :: rest)) =
      skipBlanks ((inline value).toList ++ '\n' :: rest) from rfl, plain.skipBlanks_inline]
  exact plain.value?_inline (by omega) (by decide) rest

section
variable {way : List String} (long : way ≠ []) (few : way.length ≤ nestingLimit)
include long few

theorem writes_table : Writes ("[" ++ wayText way ++ "]\n").toList [.table way] := by
  obtain ⟨c, later, written, other⟩ := exists_wayText_eq long
  have text : ("[" ++ wayText way ++ "]\n").toList = '[' :: c :: (later ++ [']', '\n']) := by
    simp [written]
  rw [text]
  refine .of_line (by decide) fun rest => ⟨'\n' :: rest, ?_, lineEnd?_feed rest⟩
  have read := key?_wayText long few (']' :: '\n' :: rest) (by simp [isBareChar])
    (by simp [skipBlanks, isBlank])
  rw [written, List.cons_append] at read
  rw [List.cons_append, List.cons_append, List.append_assoc,
    skipBlanks_of_head _ (by decide) (by decide), line?.eq_def]
  simp only
  split
  · next same => simp_all
  · next same =>
    cases same
    rw [show later ++ ([']', '\n'] ++ rest) = later ++ ']' :: '\n' :: rest from rfl, read]
    simp [bind, pure, skipBlanks, isBlank]
  all_goals next same => simp_all

theorem writes_row : Writes ("[[" ++ wayText way ++ "]]\n").toList [.row way] := by
  have text : ("[[" ++ wayText way ++ "]]\n").toList =
      '[' :: '[' :: ((wayText way).toList ++ [']', ']', '\n']) := by
    simp
  rw [text]
  refine .of_line (by decide) fun rest => ⟨'\n' :: rest, ?_, lineEnd?_feed rest⟩
  have read := key?_wayText long few (']' :: ']' :: '\n' :: rest) (by simp [isBareChar])
    (by simp [skipBlanks, isBlank])
  rw [List.cons_append, List.cons_append, List.append_assoc,
    skipBlanks_of_head _ (by decide) (by decide), line?,
    show (wayText way).toList ++ ([']', ']', '\n'] ++ rest) =
      (wayText way).toList ++ ']' :: ']' :: '\n' :: rest from rfl, read]
  simp [bind, pure, skipBlanks, isBlank]

end

end ResourceLibrary.Toml
