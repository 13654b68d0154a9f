import ResourceLibrary.Declaration.Written
import ResourceLibrary.Proofs.Value.Rearranged

/-!
Declarations read back from their written form. Main statement: reading a written declaration or
catalog gives it back, in either format and in whatever order the entries of its tables stand.
-/

namespace ResourceLibrary

theorem Info.eq_none_of_isEmpty {info : Info} (empty : info.isEmpty = true) : info = .none := by
  obtain ⟨title, description⟩ := info
  simpa [isEmpty, none] using empty

section
variable (format : StorageFormat)

theorem Info.reads (info : Info) :
    Value.Reads (Info.ofValue? format) (.table info.toFields) info := by
  intro tree rearranged
  obtain ⟨others, rfl, record, same⟩ := Value.record?_of_rearranged rearranged format
    ["title", "description"] 0 (by
    simp +contextual [toFields, List.lookup_append])
  rw [ofValue?, record, Option.bind_some, ofFields?,
    same.optional info.title (by simp [toFields, List.lookup_append]),
    same.optional info.description (by simp [toFields, List.lookup_append])]
  rfl

theorem Import.reads (entry : Import) :
    Value.Reads (Import.ofValue? format) entry.toValue entry := by
  intro tree rearranged
  obtain ⟨others, rfl, record, same⟩ := Value.record?_of_rearranged rearranged format
    ["mode", "value"] 2 (by
    simp +contextual [Table.lookup_cons_eq])
  rw [ofValue?, record, Option.bind_some, ofFields?,
    same.written rfl (Value.reads_word format (ImportMode.ofWord?_word entry.mode)),
    same.required (by simp [Table.lookup_cons_eq]) (Value.reads_text entry.value)]
  rfl

theorem Include.reads (entry : Include) :
    Value.Reads (Include.ofValue? format) entry.toValue entry := by
  intro tree rearranged
  obtain ⟨others, rfl, record, same⟩ := Value.record?_of_rearranged rearranged format
    ["mode", "category", "value", "properties"] 3 (by
    simp +contextual [Table.lookup_cons_eq])
  rw [ofValue?, record, Option.bind_some, ofFields?,
    same.written rfl (Value.reads_word format (IncludeMode.ofWord?_word entry.mode)),
    same.written (by simp [Table.lookup_cons_eq])
      (Value.reads_word format (Category.ofWord?_word entry.category)),
    same.required (by simp [Table.lookup_cons_eq]) (Value.reads_text entry.value),
    same.properties entry.properties (by simp [Table.lookup_cons_eq])]
  rfl

theorem Dependency.reads (dependency : Dependency) :
    Value.Reads (Dependency.ofValue? format) dependency.toValue dependency := by
  intro tree rearranged
  obtain ⟨others, rfl, record, same⟩ := Value.record?_of_rearranged rearranged format
    ["scope", "includes"] 1 (by
    simp +contextual [Table.lookup_cons_eq])
  have includes : Value.Reads (Value.list? (Include.ofValue? format))
      (.list (dependency.includes.map Include.toValue)) dependency.includes :=
    Value.reads_list fun entry _ => entry.reads format
  rw [ofValue?, record, Option.bind_some, ofFields?,
    same.required rfl (Value.reads_word format (Scope.ofWord?_word dependency.scope)),
    same.written (by simp [Table.lookup_cons_eq]) includes]
  rfl

theorem Filter.reads (filter : Filter) :
    Value.Reads (Filter.ofValue? format) filter.toValue filter := by
  intro tree rearranged
  obtain ⟨others, rfl, record, same⟩ := Value.record?_of_rearranged rearranged format
    ["token", "value"] 2 (by
    simp +contextual [Table.lookup_cons_eq])
  rw [ofValue?, record, Option.bind_some, ofFields?,
    same.required rfl (Value.reads_text filter.token),
    same.required (by simp [Table.lookup_cons_eq]) (Value.reads_text filter.value)]
  rfl

theorem Product.reads (product : Product) :
    Value.Reads (Product.ofValue? format) product.toValue product := by
  intro tree rearranged
  obtain ⟨others, rfl, record, same⟩ := Value.record?_of_rearranged rearranged format
    fieldNames 1 (by
      simp +contextual [fieldNames, Table.lookup_cons_eq, List.lookup_append])
  rw [ofValue?, record, Option.bind_some, ofFields?,
    same.required rfl (Value.reads_text product.id),
    same.optional product.name (by simp [Table.lookup_cons_eq, List.lookup_append]),
    same.optional product.version (by simp [Table.lookup_cons_eq, List.lookup_append]),
    same.optional product.source (by simp [Table.lookup_cons_eq, List.lookup_append]),
    same.flag product.isTest (by simp [Table.lookup_cons_eq, List.lookup_append]),
    same.flag product.isAlias (by simp [Table.lookup_cons_eq, List.lookup_append]),
    same.flag product.exported (by simp [Table.lookup_cons_eq, List.lookup_append]),
    same.properties product.properties
      (by simp [Table.lookup_cons_eq, List.lookup_append])]
  rfl

theorem Header.ofFields?_of_rearranged {header : Header} {more others : Fields}
    (away : ∀ key ∈ fieldNames, more.lookup key = none)
    (same : Fields.Rearranged (header.toFields ++ more) others) :
    Header.ofFields? format others = some header := by
  have lookup := fun key => congrArg (List.lookup key) (toFields.eq_1 header)
  simp only [List.lookup_append, Table.lookup_cons_eq, List.lookup_nil, Fields.lookup_ofOption,
    Fields.lookup_unless, Fields.lookup_ofFlag, Fields.lookup_ofProperties,
    Fields.lookup_ofList] at lookup
  have own : ∀ {key value}, key ∈ fieldNames → header.toFields.lookup key = value →
      (header.toFields ++ more).lookup key = value := by
    rintro key value member rfl
    rw [List.lookup_append, away key member, Option.or_none]
  rw [ofFields?,
    same.required (own (by decide) (by simp [lookup])) (Value.reads_text header.name),
    same.optional header.version (own (by decide) (by simp [lookup])),
    same.written (own (by decide) (by simp [lookup]))
      (Value.reads_word format (Classifier.ofWord?_word header.classifier)),
    same.optional header.basedir (own (by decide) (by simp [lookup])),
    same.writtenIf (¬header.info.isEmpty = true) (own (by decide) (by simp [lookup]))
      (header.info.reads format) fun empty => (Info.eq_none_of_isEmpty (not_not.mp empty)).symm,
    same.flag header.exported (own (by decide) (by simp [lookup])),
    same.writtenIf (header.scheme ≠ standardScheme)
      (own (by decide) (by simp [lookup])) (Value.reads_text header.scheme)
      fun equal => (not_not.mp equal).symm,
    same.written (own (by decide) (by simp [lookup]))
      (Value.reads_word format (DeclarationKind.ofWord?_word header.kind)),
    same.properties header.properties (own (by decide) (by simp [lookup])),
    same.list header.products (own (by decide) (by simp [lookup]))
      fun product _ => product.reads format,
    same.list header.dependencies (own (by decide) (by simp [lookup]))
      fun dependency _ => dependency.reads format,
    same.list header.filters (own (by decide) (by simp [lookup]))
      fun filter _ => filter.reads format]
  rfl

namespace Declaration

theorem toValues_eq_map (declarations : List Declaration) :
    toValues declarations = declarations.map toValue := by
  induction declarations with
  | nil => rfl
  | cons declaration rest ih => rw [toValues, ih, List.map_cons]

theorem ofValues?_eq_mapM (values : List Value) :
    ofValues? format values = values.mapM (ofValue? format) := by
  induction values with
  | nil => rfl
  | cons value rest ih =>
    rw [ofValues?, ih, List.mapM_cons]
    rfl

theorem ofList?_eq_list? : ofList? format = Value.list? (ofValue? format) := by
  funext value
  cases value with
  | list items => rw [ofList?, ofValues?_eq_mapM, Value.list?]
  | _ => rfl

theorem nestedByName?_eq_withDefault (entries : Fields) :
    nestedByName? format entries =
      entries.withDefault "resources" [] (Value.list? (ofValue? format)) := by
  rw [← ofList?_eq_list?, Fields.withDefault]
  induction entries with
  | nil => rfl
  | cons entry rest ih =>
    obtain ⟨name, value⟩ := entry
    rw [nestedByName?, ih, Table.lookup_cons_eq]
    by_cases own : name = "resources"
    · rw [if_pos own, if_pos own.symm]
    · rw [if_neg own, if_neg (Ne.symm own)]

theorem toValue_eq (header : Header) (nested : List Declaration) :
    toValue ⟨header, nested⟩ =
      .table (header.toFields ++ Fields.ofList "resources" toValue nested) := by
  rw [toValue, toValues_eq_map]
  rfl

mutual

theorem reads : ∀ declaration : Declaration,
    Value.Reads (ofValue? format) declaration.toValue declaration
  | ⟨header, nested⟩ => by
    intro tree rearranged
    rw [toValue_eq] at rearranged
    obtain ⟨others, rfl, record, same⟩ := Value.record?_of_rearranged rearranged format fieldNames 1
      (by simp +contextual [fieldNames, Header.fieldNames, Header.toFields, List.lookup_append,
        Table.lookup_cons_eq])
    have own := Header.ofFields?_of_rearranged format (by
      simp +contextual [Header.fieldNames]) same
    have inner : Fields.withDefault others "resources" [] (Value.list? (ofValue? format)) =
        some nested :=
      same.list nested (by simp [Header.toFields, List.lookup_append, Table.lookup_cons_eq])
        (readsAll nested)
    rw [ofValue?, record, nestedByName?_eq_withDefault, inner]
    simp [own]

theorem readsAll : ∀ (declarations : List Declaration), ∀ declaration ∈ declarations,
    Value.Reads (ofValue? format) declaration.toValue declaration
  | [], _, member => by cases member
  | first :: rest, declaration, member => by
    rcases List.mem_cons.mp member with own | later
    · exact own ▸ reads first
    · exact readsAll rest declaration later

end

end Declaration

theorem Catalog.reads (catalog : Catalog) :
    Value.Reads (Catalog.ofValue? format) catalog.toValue catalog := by
  intro tree rearranged
  obtain ⟨others, rfl, record, same⟩ := Value.record?_of_rearranged rearranged format
    ["imports", "properties", "resources"] 0 (by simp +contextual [List.lookup_append])
  rw [ofValue?, record, Option.bind_some, ofFields?, Declaration.ofList?_eq_list?,
    same.list catalog.imports (by simp [List.lookup_append])
      fun entry _ => entry.reads format,
    same.properties catalog.properties (by simp [List.lookup_append]),
    same.list catalog.resources (by simp [List.lookup_append])
      fun declaration _ => declaration.reads format]
  rfl

end
end ResourceLibrary
