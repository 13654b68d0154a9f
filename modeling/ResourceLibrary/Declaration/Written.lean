import ResourceLibrary.Declaration.Basic
import ResourceLibrary.Value

/-!
The written form of declarations as data trees. Fields stand in a fixed order; those with their
standard value are left out, apart from the words that say what a record is. Reading refuses a
field that the record does not have.
-/

namespace ResourceLibrary

namespace Info

def toFields (info : Info) : Fields :=
  Fields.ofOption "title" info.title ++ Fields.ofOption "description" info.description

def ofFields? (fields : Fields) : Option Info := do
  some ⟨← fields.optional "title" Value.text?, ← fields.optional "description" Value.text?⟩

def ofValue? (format : StorageFormat) (value : Value) : Option Info :=
  (value.record? format ["title", "description"] 0).bind ofFields?

end Info

namespace Import

def toValue (entry : Import) : Value :=
  .table [("mode", .text entry.mode.word), ("value", .text entry.value)]

def ofFields? (format : StorageFormat) (fields : Fields) : Option Import := do
  some ⟨← fields.withDefault "mode" .standard (Value.word? format ImportMode.ofWord?),
    ← fields.required "value" Value.text?⟩

def ofValue? (format : StorageFormat) (value : Value) : Option Import :=
  (value.record? format ["mode", "value"] 2).bind (ofFields? format)

end Import

namespace Include

def toValue (entry : Include) : Value :=
  .table <|
    [("mode", .text entry.mode.word), ("category", .text entry.category.word),
      ("value", .text entry.value)] ++
    Fields.ofProperties "properties" entry.properties

def ofFields? (format : StorageFormat) (fields : Fields) : Option Include := do
  some ⟨← fields.withDefault "mode" .standard (Value.word? format IncludeMode.ofWord?),
    ← fields.withDefault "category" .standard (Value.word? format Category.ofWord?),
    ← fields.required "value" Value.text?,
    ← fields.withDefault "properties" ∅ Value.properties?⟩

def ofValue? (format : StorageFormat) (value : Value) : Option Include :=
  (value.record? format ["mode", "category", "value", "properties"] 3).bind (ofFields? format)

end Include

namespace Dependency

def toValue (dependency : Dependency) : Value :=
  .table [("scope", .text dependency.scope.word),
    ("includes", .list (dependency.includes.map Include.toValue))]

def ofFields? (format : StorageFormat) (fields : Fields) : Option Dependency := do
  some ⟨← fields.required "scope" (Value.word? format Scope.ofWord?),
    ← fields.withDefault "includes" [] (Value.list? (Include.ofValue? format))⟩

def ofValue? (format : StorageFormat) (value : Value) : Option Dependency :=
  (value.record? format ["scope", "includes"] 1).bind (ofFields? format)

end Dependency

namespace Filter

def toValue (filter : Filter) : Value :=
  .table [("token", .text filter.token), ("value", .text filter.value)]

def ofFields? (fields : Fields) : Option Filter := do
  some ⟨← fields.required "token" Value.text?, ← fields.required "value" Value.text?⟩

def ofValue? (format : StorageFormat) (value : Value) : Option Filter :=
  (value.record? format ["token", "value"] 2).bind ofFields?

end Filter

namespace Product

def toValue (product : Product) : Value :=
  .table <|
    [("id", .text product.id)] ++ Fields.ofOption "name" product.name ++
    Fields.ofOption "version" product.version ++ Fields.ofOption "source" product.source ++
    Fields.ofFlag "test" false product.isTest ++ Fields.ofFlag "alias" false product.isAlias ++
    Fields.ofFlag "export" true product.exported ++
    Fields.ofProperties "properties" product.properties

def ofFields? (fields : Fields) : Option Product := do
  some ⟨← fields.required "id" Value.text?,
    ← fields.optional "name" Value.text?,
    ← fields.optional "version" Value.text?,
    ← fields.optional "source" Value.text?,
    ← fields.withDefault "test" false Value.bool?,
    ← fields.withDefault "alias" false Value.bool?,
    ← fields.withDefault "export" true Value.bool?,
    ← fields.withDefault "properties" ∅ Value.properties?⟩

def fieldNames : List String :=
  ["id", "name", "version", "source", "test", "alias", "export", "properties"]

def ofValue? (format : StorageFormat) (value : Value) : Option Product :=
  (value.record? format fieldNames 1).bind ofFields?

end Product

namespace Header

def toFields (header : Header) : Fields :=
  [("name", .text header.name)] ++ Fields.ofOption "version" header.version ++
  [("classifier", .text header.classifier.word)] ++ Fields.ofOption "basedir" header.basedir ++
  (if header.info.isEmpty then [] else [("info", .table header.info.toFields)]) ++
  Fields.ofFlag "export" true header.exported ++
  (if header.scheme = standardScheme then [] else [("scheme", .text header.scheme)]) ++
  [("kind", .text header.kind.word)] ++
  Fields.ofProperties "properties" header.properties ++
  Fields.ofList "types" Product.toValue header.products ++
  Fields.ofList "dependencies" Dependency.toValue header.dependencies ++
  Fields.ofList "filters" Filter.toValue header.filters

def ofFields? (format : StorageFormat) (fields : Fields) : Option Header := do
  some ⟨← fields.required "name" Value.text?,
    ← fields.optional "version" Value.text?,
    ← fields.withDefault "classifier" .standard (Value.word? format Classifier.ofWord?),
    ← fields.optional "basedir" Value.text?,
    ← fields.withDefault "info" .none (Info.ofValue? format),
    ← fields.withDefault "export" true Value.bool?,
    ← fields.withDefault "scheme" standardScheme Value.text?,
    ← fields.withDefault "kind" .standard (Value.word? format DeclarationKind.ofWord?),
    ← fields.withDefault "properties" ∅ Value.properties?,
    ← fields.withDefault "types" [] (Value.list? (Product.ofValue? format)),
    ← fields.withDefault "dependencies" [] (Value.list? (Dependency.ofValue? format)),
    ← fields.withDefault "filters" [] (Value.list? (Filter.ofValue? format))⟩

def fieldNames : List String :=
  ["name", "version", "classifier", "basedir", "info", "export", "scheme", "kind", "properties",
    "types", "dependencies", "filters"]

end Header

namespace Declaration

mutual

def toValue : Declaration → Value
  | ⟨header, nested⟩ =>
    .table <|
      header.toFields ++ if nested.isEmpty then [] else [("resources", .list (toValues nested))]

def toValues : List Declaration → List Value
  | [] => []
  | declaration :: rest => toValue declaration :: toValues rest

end

def fieldNames : List String := Header.fieldNames ++ ["resources"]

mutual

def ofValue? (format : StorageFormat) : Value → Option Declaration
  | .table entries => do
    let fields ← Value.record? format fieldNames 1 (.table entries)
    some ⟨← Header.ofFields? format fields, ← nestedByName? format entries⟩
  | .list items => do
    let fields ← Value.record? format fieldNames 1 (.list items)
    some ⟨← Header.ofFields? format fields, ← nestedAt? format Header.fieldNames.length items⟩
  | _ => none

def nestedByName? (format : StorageFormat) : List (String × Value) → Option (List Declaration)
  | [] => some []
  | (name, value) :: rest =>
    if name = "resources" then ofList? format value else nestedByName? format rest

def nestedAt? (format : StorageFormat) : Nat → List Value → Option (List Declaration)
  | _, [] => some []
  | 0, value :: _ => ofList? format value
  | position + 1, _ :: rest => nestedAt? format position rest

def ofList? (format : StorageFormat) : Value → Option (List Declaration)
  | .list items => ofValues? format items
  | _ => none

def ofValues? (format : StorageFormat) : List Value → Option (List Declaration)
  | [] => some []
  | value :: rest => do some ((← ofValue? format value) :: (← ofValues? format rest))

end

end Declaration

namespace Catalog

def toValue (catalog : Catalog) : Value :=
  .table <|
    Fields.ofList "imports" Import.toValue catalog.imports ++
    Fields.ofProperties "properties" catalog.properties ++
    Fields.ofList "resources" Declaration.toValue catalog.resources

def ofFields? (format : StorageFormat) (fields : Fields) : Option Catalog := do
  some ⟨← fields.withDefault "imports" [] (Value.list? (Import.ofValue? format)),
    ← fields.withDefault "properties" ∅ Value.properties?,
    ← fields.withDefault "resources" [] (Declaration.ofList? format)⟩

def ofValue? (format : StorageFormat) (value : Value) : Option Catalog :=
  (value.record? format ["imports", "properties", "resources"] 0).bind (ofFields? format)

end Catalog
end ResourceLibrary
