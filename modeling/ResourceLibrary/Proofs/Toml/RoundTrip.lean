import ResourceLibrary.Proofs.Toml.Documents
import ResourceLibrary.Toml.Document

/-!
Trees read from the documents they are written as. Main statement: a table that can be written is
read from its document, the entries of each table in another order, if no way to a header in it has
more parts than a key may have.
-/

namespace ResourceLibrary.Toml

def FitsDocument : Value → Prop
  | .table entries => (entries.map (·.1)).Nodup ∧ FitEntries entries
  | _ => False

section Texts
variable {blocks : List String} {parts : List (List Line)}

theorem writes_intercalate
    (texts : List.Forall₂ (fun text lines => Writes text.toList lines) blocks parts) :
    Writes ("\n".intercalate blocks).toList ([Line.void].intercalate parts) := by
  rw [String.toList_intercalate]
  induction texts with
  | nil => exact .nil
  | cons first later ih =>
    cases later with
    | nil => simpa using first
    | cons second others =>
      rw [List.map_cons, List.map_cons, List.intercalate_cons_cons, List.intercalate_cons_cons,
        List.append_assoc, List.append_assoc]
      exact first.append (writes_void.append ih)

theorem foldlM_intercalate (parts : List (List Line)) (draft : Draft) :
    ([Line.void].intercalate parts).foldlM Draft.read draft =
      parts.flatten.foldlM Draft.read draft := by
  induction parts generalizing draft with
  | nil => rfl
  | cons first later ih =>
    cases later with
    | nil => simp
    | cons second others =>
      rw [List.intercalate_cons_cons, List.flatten_cons, List.append_assoc, List.foldlM_append,
        List.foldlM_append]
      congr 1
      funext mid
      exact ih mid

theorem parse_of_writes {text : String} {lines : List Line} (writes : Writes text.toList lines) :
    parse text =
      (lines.foldlM Draft.read .start).map fun draft => .table (closeEntries draft.sections) := by
  have unmarked := writes.unmarked
  have read := writes.lines?_eq
  rw [parse]
  cases content : text.toList with
  | nil =>
    rw [content] at read
    simp only [bind, read, Option.bind_some]
    cases lines.foldlM Draft.read .start <;> rfl
  | cons c rest =>
    rw [content] at read unmarked
    rw [List.head?_cons, Ne, Option.some.injEq] at unmarked
    simp only [bind, if_neg unmarked, read, Option.bind_some]
    cases lines.foldlM Draft.read .start <;> rfl

theorem exists_root {entries : List (String × Value)} (fit : FitEntries entries) :
    ∃ parts, List.Forall₂ (fun text lines => Writes text.toList lines) (block [] false entries) parts ∧
      parts.flatten = assignments entries := by
  have writes := writes_plainLines fit
  by_cases bare : plainLines entries = []
  · rw [bare] at writes
    have none : assignments entries = [] := List.length_eq_zero_iff.mp (Nat.le_zero.mp writes.short)
    exact ⟨[], by simp [block, bare], none.symm⟩
  · exact ⟨[assignments entries], by simpa [block, bare] using writes, by simp⟩

end Texts

theorem parse_render {entries : List (String × Value)} (fit : FitEntries entries)
    (distinct : (entries.map (·.1)).Nodup) (few : entriesDepth entries ≤ nestingLimit) :
    parse (render (.table entries)) =
      some (.table (closeEntries (plainSections entries ++ headedSections entries))) := by
  -- The plain entries stand in front of all headers; the blocks of the others are read behind them.
  obtain ⟨root, plain, flat⟩ := exists_root fit
  obtain ⟨parts, change, texts, does, late⟩ := adds_entries [] entries fit distinct (by simpa using few)
  obtain ⟨own, assigned, rest⟩ := Option.bind_eq_some_iff.mp (filled_eq distinct late)
  have start : (assignments entries).foldlM Draft.read .start = some ⟨own, []⟩ := by
    rw [foldlM_assignments entries .start (stands_nil _)]
    exact congrArg (Option.map _) assigned
  have below := does ⟨own, []⟩ (stands_nil own)
  obtain ⟨last, read, sections⟩ := Option.map_eq_some_iff.mp (below.trans rest)
  rw [render, parse_of_writes (writes_intercalate (List.rel_append plain texts)), foldlM_intercalate,
    List.flatten_append, flat, List.foldlM_append, start]
  simp only [bind, Option.bind_some, read, Option.map_some, sections]

section Closing

theorem closeEntries_eq_map (sections : Sections) :
    closeEntries sections = sections.map fun entry => (entry.1, entry.2.close) := by
  induction sections with
  | nil => rfl
  | cons entry rest ih => rw [closeEntries, ih, List.map_cons]

theorem closeRows_eq_map (rows : List Sections) :
    closeRows rows = rows.map fun row => .table (closeEntries row) := by
  induction rows with
  | nil => rfl
  | cons row rest ih => rw [closeRows, ih, List.map_cons]

theorem lookup_closeEntries (sections : Sections) (key : String) :
    (closeEntries sections).lookup key = (sections.lookup key).map Section.close := by
  induction sections with
  | nil => rfl
  | cons entry rest ih =>
    rw [closeEntries, Table.lookup_cons_eq, Table.lookup_cons_eq, ih]
    split <;> rfl

theorem mem_headedSections {entries : List (String × Value)} {entry : String × Value}
    (member : entry ∈ entries) (header : hasHeader entry.2 = true) :
    (entry.1, sectionOf entry.2) ∈ headedSections entries := by
  induction entries with
  | nil => cases member
  | cons first rest ih =>
    rw [headedSections]
    rcases List.mem_cons.mp member with rfl | behind
    · rw [if_pos header]
      exact List.mem_cons_self
    · split
      · exact List.mem_cons_of_mem _ (ih behind)
      · exact ih behind

theorem lookup_sections {entries : List (String × Value)} (distinct : (entries.map (·.1)).Nodup)
    {entry : String × Value} (member : entry ∈ entries) :
    (plainSections entries ++ headedSections entries).lookup entry.1 =
      some (if hasHeader entry.2 then sectionOf entry.2 else .value entry.2) := by
  rw [lookup_eq_some_iff_mem ((keys_perm entries).nodup_iff.mpr distinct), List.mem_append]
  split
  · next header => exact .inr (mem_headedSections member header)
  · next line =>
    refine .inl (List.mem_map.mpr ⟨entry, List.mem_filter.mpr ⟨member, ?_⟩, rfl⟩)
    simpa using line

theorem Plain.rearranged_self {value : Value} (plain : Plain value) : value.Rearranged value := by
  cases plain with
  | text content => rfl
  | bool flag => rfl
  | empty => exact ⟨[], rfl, rfl⟩

theorem keys_closeEntries_perm (entries : List (String × Value)) :
    ((closeEntries (plainSections entries ++ headedSections entries)).map (·.1)).Perm
      (entries.map (·.1)) := by
  rw [closeEntries_eq_map, List.map_map]
  exact keys_perm entries

theorem rearranged_table {entries : List (String × Value)}
    (same : Value.RearrangedEntries entries
      (closeEntries (plainSections entries ++ headedSections entries))) :
    (Value.table entries).Rearranged
      (.table (closeEntries (plainSections entries ++ headedSections entries))) :=
  ⟨_, rfl, keys_closeEntries_perm entries, same⟩

mutual

theorem rearranged_sectionOf : ∀ value, Fits value → hasHeader value = true →
    value.Rearranged (sectionOf value).close
  | .table entries, ⟨distinct, fit, _⟩, _ =>
    rearranged_table (rearranged_entries entries _ fit fun _ member =>
      lookup_sections distinct member)
  | .list items, fit, _ => by
    refine ⟨_, rfl, ?_⟩
    rw [closeRows_eq_map, List.map_reverse, List.reverse_reverse]
    exact rearranged_rows items fit
  | .text _, _, header | .bool _, _, header => by cases header
  | .null, fit, _ | .number _, fit, _ | .moment _, fit, _ => by cases fit

theorem rearranged_entries : ∀ (entries : List (String × Value)) (sections : Sections),
    FitEntries entries →
    (∀ entry ∈ entries, sections.lookup entry.1 =
      some (if hasHeader entry.2 then sectionOf entry.2 else .value entry.2)) →
    Value.RearrangedEntries entries (closeEntries sections)
  | [], _, _, _ => trivial
  | (key, value) :: rest, sections, ⟨own, later⟩, found => by
    rw [List.forall_mem_cons] at found
    refine ⟨⟨(if hasHeader value then sectionOf value else .value value).close, ?_, ?_⟩,
      rearranged_entries rest sections later found.2⟩
    · rw [lookup_closeEntries, found.1]
      rfl
    · split
      · next header => exact rearranged_sectionOf value own header
      · next line => exact (plain_of_fits own (by simpa using line)).rearranged_self

theorem rearranged_rows : ∀ items, FitItems items →
    Value.RearrangedItems items ((rowsOf items).map fun row => .table (closeEntries row))
  | [], _ => rfl
  | .table entries :: rest, ⟨distinct, fit, later⟩ =>
    ⟨_, _, rfl, rearranged_table (rearranged_entries entries _ fit fun _ member =>
      lookup_sections distinct member), rearranged_rows rest later⟩

end

end Closing

/-- A tree is read again from the document that it is written as. -/
theorem exists_parse_render {value : Value} (fit : FitsDocument value)
    (few : headerDepth value ≤ nestingLimit) :
    ∃ tree, parse (render value) = some tree ∧ value.Rearranged tree := by
  cases value with
  | table entries =>
    obtain ⟨distinct, fits⟩ := fit
    exact ⟨_, parse_render fits distinct few, rearranged_table
      (rearranged_entries entries _ fits fun _ member => lookup_sections distinct member)⟩
  | _ => cases fit

theorem table_rearranged_self {entries : List (String × Value)}
    (distinct : (entries.map (·.1)).Nodup)
    (same : ∀ others : List (String × Value),
      (∀ entry ∈ entries, others.lookup entry.1 = some entry.2) →
        Value.RearrangedEntries entries others) :
    (Value.table entries).Rearranged (.table entries) :=
  ⟨entries, rfl, .refl _, same entries fun _ member =>
    (lookup_eq_some_iff_mem distinct).mpr member⟩

mutual

theorem Fits.rearranged_self : ∀ value, Fits value → value.Rearranged value
  | .table entries, ⟨distinct, fit, _⟩ =>
    table_rearranged_self distinct fun others => FitEntries.rearranged_self entries others fit
  | .list items, fit => ⟨items, rfl, FitItems.rearranged_self items fit⟩
  | .text _, _ | .bool _, _ => rfl
  | .null, fit | .number _, fit | .moment _, fit => by cases fit

theorem FitEntries.rearranged_self : ∀ entries others : List (String × Value), FitEntries entries →
    (∀ entry ∈ entries, others.lookup entry.1 = some entry.2) →
    Value.RearrangedEntries entries others
  | [], _, _, _ => trivial
  | (_, value) :: rest, others, ⟨own, later⟩, found =>
    have ⟨first, behind⟩ := List.forall_mem_cons.mp found
    ⟨⟨value, first, Fits.rearranged_self value own⟩,
      FitEntries.rearranged_self rest others later behind⟩

theorem FitItems.rearranged_self : ∀ items, FitItems items → Value.RearrangedItems items items
  | [], _ => rfl
  | .table entries :: rest, ⟨distinct, fit, later⟩ =>
    ⟨_, _, rfl,
      table_rearranged_self distinct fun others => FitEntries.rearranged_self entries others fit,
      FitItems.rearranged_self rest later⟩

end

theorem FitsDocument.rearranged_self {value : Value} (fit : FitsDocument value) :
    value.Rearranged value := by
  cases value with
  | table entries =>
    obtain ⟨distinct, fits⟩ := fit
    exact table_rearranged_self distinct fun others =>
      FitEntries.rearranged_self entries others fits
  | _ => cases fit

end ResourceLibrary.Toml
