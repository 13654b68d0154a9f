import ResourceLibrary.Proofs.Toml.Lines
import ResourceLibrary.Proofs.Toml.Sections

/-!
Blocks of a document written and read again. Main statement: reading the blocks of a table below a
way that stands adds the sections of its entries there and changes nothing else, if no way to a
header in it has more parts than a key may have.
-/

namespace ResourceLibrary.Toml

mutual

/-- Whether a value can be written under a key: a text, a flag, a list of tables, or a table with a
plain entry, and no key twice in a table. -/
def Fits : Value → Prop
  | .text _ => True
  | .bool _ => True
  | .list items => FitItems items
  | .table entries => (entries.map (·.1)).Nodup ∧ FitEntries entries ∧
      ∃ entry ∈ entries, hasHeader entry.2 = false
  | _ => False

def FitItems : List Value → Prop
  | [] => True
  | .table entries :: rest => (entries.map (·.1)).Nodup ∧ FitEntries entries ∧ FitItems rest
  | _ :: _ => False

def FitEntries : List (String × Value) → Prop
  | [] => True
  | (_, value) :: rest => Fits value ∧ FitEntries rest

end

mutual

def headerDepth : Value → Nat
  | .table entries => entriesDepth entries
  | .list items => itemsDepth items
  | _ => 0

def itemsDepth : List Value → Nat
  | [] => 0
  | item :: rest => max (headerDepth item) (itemsDepth rest)

def entriesDepth : List (String × Value) → Nat
  | [] => 0
  | (_, value) :: rest =>
    max (if hasHeader value then headerDepth value + 1 else 0) (entriesDepth rest)

end

theorem fitEntries_iff {entries : List (String × Value)} :
    FitEntries entries ↔ ∀ entry ∈ entries, Fits entry.2 := by
  induction entries with
  | nil => simp [FitEntries]
  | cons entry rest ih => rw [FitEntries, ih, List.forall_mem_cons]

theorem isTable_of_fits {items : List Value} (fit : FitItems items) : items.all isTable = true := by
  induction items with
  | nil => rfl
  | cons item rest ih =>
    cases item with
    | table entries => simpa [isTable] using ih fit.2.2
    | _ => simp [FitItems] at fit

theorem plain_of_fits {value : Value} (fit : Fits value) (line : hasHeader value = false) :
    Plain value := by
  cases value with
  | text content => exact .text content
  | bool flag => exact .bool flag
  | table entries => cases line
  | list items =>
    cases items with
    | nil => exact .empty
    | cons item rest =>
      rw [hasHeader, isTable_of_fits fit] at line
      cases line
  | _ => cases fit

def plainEntries (entries : List (String × Value)) : List (String × Value) :=
  entries.filter fun entry => !hasHeader entry.2

def assignments (entries : List (String × Value)) : List Line :=
  (plainEntries entries).map fun entry => .assignment [entry.1] entry.2

theorem writes_plainLines {entries : List (String × Value)} (fit : FitEntries entries) :
    Writes (String.join (plainLines entries)).toList (assignments entries) := by
  rw [String.toList_join]
  induction entries with
  | nil => exact .nil
  | cons entry rest ih =>
    obtain ⟨key, value⟩ := entry
    obtain ⟨own, later⟩ := fit
    cases line : hasHeader value with
    | true =>
      have skipped : plainLines ((key, value) :: rest) = plainLines rest := by
        simp [plainLines, line]
      rw [skipped, assignments, plainEntries, List.filter_cons_of_neg (by simp [line])]
      exact ih later
    | false =>
      have first : plainLines ((key, value) :: rest) =
          (keyText key ++ " = " ++ inline value ++ "\n") :: plainLines rest := by
        simp [plainLines, line]
      rw [first, assignments, plainEntries, List.filter_cons_of_pos (by simp [line]),
        List.flatMap_cons, List.map_cons]
      exact (writes_assignment key (plain_of_fits own line)).append (ih later)

theorem writes_block {way : List String} {isElement : Bool} {entries : List (String × Value)}
    {line : Line} {header : String} (start : Writes header.toList [line])
    (fit : FitEntries entries)
    (written : block way isElement entries = [String.join (header :: plainLines entries)]) :
    List.Forall₂ (fun text lines => Writes text.toList lines) (block way isElement entries)
      [line :: assignments entries] := by
  rw [written]
  refine .cons ?_ .nil
  have whole := start.append (writes_plainLines fit)
  rw [String.toList_join] at whole ⊢
  exact whole

/-- Reading these lines changes the sections below a way that stands. -/
def Does (parts : List (List Line)) (way : List String) (change : Sections → Option Sections) :
    Prop :=
  ∀ draft : Draft, Stands way draft.sections →
    (parts.flatten.foldlM Draft.read draft).map Draft.sections = within change way draft.sections

theorem does_nil (way : List String) : Does [] way some := by
  intro draft stands
  exact stands.symm

theorem Does.append {front back : List (List Line)} {way : List String}
    {first second : Sections → Option Sections} (before : Does front way first)
    (after : Does back way second) :
    Does (front ++ back) way fun sections => (first sections).bind second := by
  intro draft stands
  have early := before draft stands
  rw [List.flatten_append, List.foldlM_append, within_bind, ← early]
  cases done : front.flatten.foldlM Draft.read draft with
  | none => rfl
  | some mid =>
    rw [done] at early
    exact after mid (stands_of_within early.symm)

def assignAll (entries : List (String × Value)) (sections : Sections) : Option Sections :=
  entries.foldlM (fun grown entry => assign entry.1 entry.2 [] grown) sections

theorem foldlM_assignments (entries : List (String × Value)) (draft : Draft)
    (stands : Stands draft.way draft.sections) :
    (assignments entries).foldlM Draft.read draft =
      (within (assignAll (plainEntries entries)) draft.way draft.sections).map
        fun sections => ⟨sections, draft.way⟩ := by
  rw [assignments]
  generalize plainEntries entries = plain
  induction plain generalizing draft with
  | nil =>
    rw [show assignAll [] = some from rfl, stands]
    rfl
  | cons entry rest ih =>
    rw [List.map_cons, List.foldlM_cons,
      show assignAll (entry :: rest) = fun sections =>
        (assign entry.1 entry.2 [] sections).bind (assignAll rest) from rfl, within_bind]
    have step : draft.read (.assignment [entry.1] entry.2) =
        (within (assign entry.1 entry.2 []) draft.way draft.sections).map
          fun sections => ⟨sections, draft.way⟩ := by
      simp only [Draft.read, Draft.ends, List.dropLast_singleton, List.getLast?_singleton,
        Option.getD_some]
      cases within (assign entry.1 entry.2 []) draft.way draft.sections <;> rfl
    rw [step]
    cases done : within (assign entry.1 entry.2 []) draft.way draft.sections with
    | none => rfl
    | some changed => exact ih _ (stands_of_within done)

def plainSections (entries : List (String × Value)) : Sections :=
  (plainEntries entries).map fun entry => (entry.1, .value entry.2)

mutual

def sectionOf : Value → Section
  | .table entries => .table .header (plainSections entries ++ headedSections entries)
  | .list items => .tables (rowsOf items).reverse
  | value => .value value

def headedSections : List (String × Value) → Sections
  | [] => []
  | (key, value) :: rest =>
    if hasHeader value then (key, sectionOf value) :: headedSections rest else headedSections rest

def rowsOf : List Value → List Sections
  | [] => []
  | .table entries :: rest => (plainSections entries ++ headedSections entries) :: rowsOf rest
  | _ :: rest => rowsOf rest

end

theorem keys_headedSections (entries : List (String × Value)) :
    (headedSections entries).map (·.1) =
      (entries.filter fun entry => hasHeader entry.2).map (·.1) := by
  induction entries with
  | nil => rfl
  | cons entry rest ih =>
    rw [headedSections]
    cases header : hasHeader entry.2 <;> simp [header, ih]

theorem keys_perm (entries : List (String × Value)) :
    ((plainSections entries ++ headedSections entries).map (·.1)).Perm (entries.map (·.1)) := by
  rw [List.map_append, keys_headedSections, plainSections, plainEntries, List.map_map]
  have parts := (List.filter_append_perm (fun entry => hasHeader entry.2) entries).map (·.1)
  rw [List.map_append] at parts
  exact List.perm_append_comm.trans parts

theorem nodup_keys_headed {key : String} {value : Value} {rest : List (String × Value)}
    (header : hasHeader value = true) (distinct : (((key, value) :: rest).map (·.1)).Nodup) :
    (([(key, sectionOf value)] ++ headedSections rest).map (·.1)).Nodup := by
  have keys := keys_headedSections ((key, value) :: rest)
  rw [headedSections, if_pos header] at keys
  rw [List.singleton_append, keys]
  exact distinct.sublist (List.filter_sublist.map _)

theorem rowsOf_reverse_ne_nil {items : List Value} (fit : FitItems items)
    (header : hasHeader (.list items) = true) : (rowsOf items).reverse ≠ [] := by
  cases items with
  | nil => cases header
  | cons item rest =>
    cases item with
    | table entries => simp [rowsOf]
    | _ => cases fit

theorem lookup_append_eq_none {sections more : Sections} {key : String} :
    (sections ++ more).lookup key = none ↔ sections.lookup key = none ∧ more.lookup key = none := by
  rw [List.lookup_append, Option.or_eq_none_iff]

theorem assignAll_eq {entries : List (String × Value)} (distinct : (entries.map (·.1)).Nodup)
    {sections : Sections} (free : ∀ key ∈ entries.map (·.1), sections.lookup key = none) :
    assignAll entries sections =
      some (sections ++ entries.map fun entry => (entry.1, .value entry.2)) := by
  induction entries generalizing sections with
  | nil => simp [assignAll]
  | cons entry rest ih =>
    obtain ⟨fresh, others⟩ := List.nodup_cons.mp distinct
    rw [List.map_cons, List.forall_mem_cons] at free
    have first : assign entry.1 entry.2 [] sections =
        some (sections ++ [(entry.1, .value entry.2)]) := by
      rw [assign, free.1]
    have still : ∀ key ∈ rest.map (·.1),
        (sections ++ [(entry.1, Section.value entry.2)]).lookup key = none := by
      intro key member
      refine lookup_append_eq_none.mpr ⟨free.2 key member, ?_⟩
      rw [Table.lookup_cons_eq, if_neg]
      · rfl
      · rintro rfl
        exact fresh member
    rw [show assignAll (entry :: rest) sections =
      (assign entry.1 entry.2 [] sections).bind (assignAll rest) from rfl, first, Option.bind_some,
      ih others still, List.append_assoc]
    rfl

/-- Reading these blocks below a way that stands adds these sections there. -/
def Adds (way : List String) (blocks : List String) (added : Sections) : Prop :=
  ∃ parts change, List.Forall₂ (fun text lines => Writes text.toList lines) blocks parts ∧
    Does parts way change ∧ ∀ sections : Sections,
      (∀ key ∈ added.map (·.1), sections.lookup key = none) → change sections = some (sections ++ added)

theorem adds_nil (way : List String) : Adds way [] [] :=
  ⟨[], some, .nil, does_nil way, by simp⟩

theorem Adds.append {way : List String} {front back : List String} {first second : Sections}
    (before : Adds way front first) (after : Adds way back second)
    (distinct : ((first ++ second).map (·.1)).Nodup) :
    Adds way (front ++ back) (first ++ second) := by
  obtain ⟨parts, change, texts, does, early⟩ := before
  obtain ⟨more, alter, others, goes, late⟩ := after
  -- The keys of the back part are still free behind the front part, since no key stands in both.
  refine ⟨parts ++ more, _, List.rel_append texts others, does.append goes, fun sections free => ?_⟩
  rw [List.map_append] at distinct free
  rw [early sections fun key member => free key (by simp [member]), Option.bind_some, late,
    List.append_assoc]
  intro key member
  refine lookup_append_eq_none.mpr ⟨free key (by simp [member]), ?_⟩
  rw [lookup_eq_none_iff_keys]
  exact fun also => List.disjoint_of_nodup_append distinct also member

section
variable {way : List String} {key : String}

theorem read_table (draft : Draft) : draft.read (.table (way ++ [key])) =
    (within (openTable key) way draft.sections).map fun sections => ⟨sections, way ++ [key]⟩ := by
  simp only [Draft.read, Draft.ends, List.dropLast_concat, List.getLast?_concat, Option.getD_some]
  cases within (openTable key) way draft.sections <;> rfl

theorem read_row (draft : Draft) : draft.read (.row (way ++ [key])) =
    (within (openRow key) way draft.sections).map fun sections => ⟨sections, way ++ [key]⟩ := by
  simp only [Draft.read, Draft.ends, List.dropLast_concat, List.getLast?_concat, Option.getD_some]
  cases within (openRow key) way draft.sections <;> rfl

/-- A header opens its table, the lines after it fill the table with plain entries, and what stands
below goes on from there. -/
theorem does_open {line : Line} {opening change : Sections → Option Sections}
    (reads : ∀ draft : Draft, draft.read line =
      (within opening way draft.sections).map fun sections => ⟨sections, way ++ [key]⟩)
    (opens : ∀ {sections opened}, opening sections = some opened → Stands [key] opened)
    (entries : List (String × Value)) {parts : List (List Line)}
    (inner : Does parts (way ++ [key]) change) :
    Does ((line :: assignments entries) :: parts) way fun sections =>
      (opening sections).bind
        (within (fun own => (assignAll (plainEntries entries) own).bind change) [key]) := by
  intro draft _
  rw [List.flatten_cons, List.foldlM_append, List.foldlM_cons, reads, within_bind, ← within_append]
  cases opened : within opening way draft.sections with
  | none => rfl
  | some sections =>
    -- The table that was opened stands, so the lines behind its header are read below it.
    have stands : Stands (way ++ [key]) sections := by
      have still : (fun sections => (opening sections).bind (within some [key])) = opening := by
        funext before
        cases after : opening before with
        | none => rfl
        | some after => exact opens ‹_›
      have again := within_bind opening (within some [key]) way draft.sections
      rw [still, opened, Option.bind_some, ← within_append] at again
      exact again.symm
    simp only [Option.map_some, Option.bind_some, bind]
    rw [foldlM_assignments entries ⟨sections, way ++ [key]⟩ stands, within_bind]
    cases filled : within (assignAll (plainEntries entries)) (way ++ [key]) sections with
    | none => rfl
    | some full => exact inner ⟨full, way ++ [key]⟩ (stands_of_within filled)

theorem filled_eq {entries : List (String × Value)} (distinct : (entries.map (·.1)).Nodup)
    {change : Sections → Option Sections} (late : ∀ sections : Sections,
      (∀ key ∈ (headedSections entries).map (·.1), sections.lookup key = none) →
        change sections = some (sections ++ headedSections entries)) :
    (assignAll (plainEntries entries) []).bind change =
      some (plainSections entries ++ headedSections entries) := by
  have unique := (keys_perm entries).nodup_iff.mpr distinct
  have plain : ((plainEntries entries).map (·.1)).Nodup :=
    distinct.sublist (List.filter_sublist.map _)
  rw [assignAll_eq plain (by simp), Option.bind_some, List.nil_append]
  refine late _ fun key member => lookup_eq_none_iff_keys.mpr fun also => ?_
  rw [List.map_append] at unique
  exact List.disjoint_of_nodup_append unique also member

end

theorem block_of_plain {way : List String} {key : String} {entries : List (String × Value)}
    (plain : ∃ entry ∈ entries, hasHeader entry.2 = false) :
    block (way ++ [key]) false entries =
      [String.join (("[" ++ wayText (way ++ [key]) ++ "]\n") :: plainLines entries)] := by
  obtain ⟨entry, member, line⟩ := plain
  have some : plainLines entries ≠ [] := by
    rw [plainLines, Ne, List.filterMap_eq_nil_iff]
    intro none
    simpa [line] using none entry member
  simp [block, some]

theorem block_of_element (way : List String) (entries : List (String × Value)) :
    block way true entries = [String.join (("[[" ++ wayText way ++ "]]\n") :: plainLines entries)] :=
  rfl

mutual

theorem adds_value (way : List String) (key : String) :
    ∀ value, Fits value → hasHeader value = true →
      way.length + 1 + headerDepth value ≤ nestingLimit →
      Adds way (valueBlocks (way ++ [key]) value) [(key, sectionOf value)]
  | .table entries, fit, _, few => by
    obtain ⟨distinct, fits, plain⟩ := fit
    obtain ⟨parts, change, texts, does, late⟩ :=
      adds_entries (way ++ [key]) entries fits distinct (by rw [List.length_append]; exact few)
    have header := writes_table (show way ++ [key] ≠ [] by simp)
      (by rw [List.length_append]; exact Nat.le_of_add_right_le few)
    refine ⟨_ :: parts, _, List.rel_append (writes_block header fits (block_of_plain plain)) texts,
      does_open read_table stands_of_openTable entries does, fun sections free => ?_⟩
    exact openTable_bind (free key (by simp)) (filled_eq distinct late)
  | .list items, fit, header, few => by
    obtain ⟨parts, change, texts, does, late⟩ := adds_items way key items fit few
    have blocks : valueBlocks (way ++ [key]) (.list items) = elementBlocks (way ++ [key]) items := by
      rw [valueBlocks, if_pos (isTable_of_fits fit)]
    refine ⟨parts, change, blocks ▸ texts, does, fun sections free => ?_⟩
    have rows := late sections [] (free key (by simp))
    rw [List.append_nil, Sections.withRows_of_ne_nil (rowsOf_reverse_ne_nil fit header)] at rows
    exact rows
  | .text _, _, header, _ | .bool _, _, header, _ => by cases header
  | .null, fit, _, _ | .number _, fit, _, _ | .moment _, fit, _, _ => by cases fit

theorem adds_entries (way : List String) :
    ∀ entries, FitEntries entries → (entries.map (·.1)).Nodup →
      way.length + entriesDepth entries ≤ nestingLimit →
      Adds way (entryBlocks way entries) (headedSections entries)
  | [], _, _, _ => adds_nil way
  | (key, value) :: rest, fit, distinct, few => by
    obtain ⟨own, later⟩ := fit
    obtain ⟨fresh, others⟩ := List.nodup_cons.mp distinct
    rw [entriesDepth] at few
    have behind := adds_entries way rest later others (by omega)
    rw [entryBlocks, headedSections]
    cases header : hasHeader value with
    | true =>
      rw [if_pos header] at few
      have first := adds_value way key value own header (by omega)
      exact first.append behind (nodup_keys_headed header distinct)
    | false =>
      have none : valueBlocks (way ++ [key]) value = [] := by
        cases plain_of_fits own header <;> simp [valueBlocks, elementBlocks]
      rw [none]
      exact behind

theorem adds_items (way : List String) (key : String) :
    ∀ items, FitItems items → way.length + 1 + itemsDepth items ≤ nestingLimit →
      ∃ parts change, List.Forall₂ (fun text lines => Writes text.toList lines)
        (elementBlocks (way ++ [key]) items) parts ∧ Does parts way change ∧
        ∀ (sections : Sections) rows, sections.lookup key = none →
          change (sections.withRows key rows) =
            some (sections.withRows key ((rowsOf items).reverse ++ rows))
  | [], _, _ => ⟨[], some, .nil, does_nil way, fun _ _ _ => rfl⟩
  | .table entries :: rest, fit, few => by
    obtain ⟨distinct, fits, later⟩ := fit
    rw [itemsDepth, headerDepth] at few
    obtain ⟨parts, change, texts, does, late⟩ :=
      adds_entries (way ++ [key]) entries fits distinct (by rw [List.length_append]; simp; omega)
    obtain ⟨more, alter, others, goes, behind⟩ := adds_items way key rest later (by omega)
    have header := writes_row (show way ++ [key] ≠ [] by simp)
      (by rw [List.length_append, List.length_singleton]; omega)
    refine ⟨(_ :: parts) ++ more, _, List.rel_append
      (List.rel_append (writes_block header fits (block_of_element _ entries)) texts) others,
      (does_open read_row stands_of_openRow entries does).append goes, fun sections rows free => ?_⟩
    -- Rows are kept last one first.
    rw [openRow_bind free (filled_eq distinct late), Option.bind_some, behind _ _ free, rowsOf,
      List.reverse_cons, List.append_assoc]
    rfl

end

end ResourceLibrary.Toml
