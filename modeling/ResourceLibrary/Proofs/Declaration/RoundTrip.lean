import ResourceLibrary.Library.Loading
import ResourceLibrary.Proofs.Declaration.Reading
import ResourceLibrary.Proofs.Toml.RoundTrip

/-!
Declarations and catalogs written and read again. Main statements: their written form can be written
as a document, and reading it gives back what was written; whatever tree a declaration was read
from, its written form is read the same and is written as itself.
-/

namespace ResourceLibrary

namespace Fields

structure Writable (fields : Fields) (names : List String) : Prop where
  keys : (fields.map (·.1)).Sublist names
  fit : Toml.FitEntries fields

namespace Writable
variable {fields others : Fields} {names more : List String}

theorem nil (names : List String) : Writable [] names := ⟨List.nil_sublist _, trivial⟩

theorem entry (name : String) {value : Value} (fit : Toml.Fits value) :
    Writable [(name, value)] [name] :=
  ⟨.refl _, fit, trivial⟩

theorem text (name content : String) : Writable [(name, .text content)] [name] :=
  entry name trivial

theorem append (first : Writable fields names) (second : Writable others more) :
    Writable (fields ++ others) (names ++ more) := by
  refine ⟨?_, Toml.fitEntries_iff.mpr fun entry member => ?_⟩
  · rw [List.map_append]
    exact first.keys.append second.keys
  · rcases List.mem_append.mp member with front | back
    · exact Toml.fitEntries_iff.mp first.fit entry front
    · exact Toml.fitEntries_iff.mp second.fit entry back

theorem leftOut {condition : Prop} [Decidable condition]
    (written : ¬condition → Writable fields names) :
    Writable (if condition then [] else fields) names := by
  split
  · exact nil names
  · next given => exact written given

theorem fitsDocument (written : Writable fields names) (distinct : names.Nodup) :
    Toml.FitsDocument (.table fields) :=
  ⟨distinct.sublist written.keys, written.fit⟩

end Writable

theorem fits_of_fitsDocument {fields : Fields} (fit : Toml.FitsDocument (.table fields))
    {entry : String × Value} (member : entry ∈ fields) (plain : Toml.hasHeader entry.2 = false) :
    Toml.Fits (.table fields) :=
  ⟨fit.1, fit.2, entry, member, plain⟩

theorem fitItems_map {α : Type} {write : α → Value} {items : List α}
    (each : ∀ item ∈ items, Toml.FitsDocument (write item)) :
    Toml.FitItems (items.map write) := by
  induction items with
  | nil => trivial
  | cons item rest ih =>
    obtain ⟨first, later⟩ := List.forall_mem_cons.mp each
    rw [List.map_cons]
    cases same : write item with
    | table entries =>
      rw [same] at first
      exact ⟨first.1, first.2, ih later⟩
    | _ =>
      rw [same] at first
      cases first

section
variable (name : String)

theorem writable_ofOption (content : Option String) : Writable (ofOption name content) [name] := by
  cases content with
  | none => exact .nil _
  | some content => exact .entry name trivial

theorem writable_ofFlag (standard flag : Bool) : Writable (ofFlag name standard flag) [name] :=
  .leftOut fun _ => .entry name trivial

theorem writable_ofList {α : Type} {write : α → Value} (items : List α)
    (each : ∀ item ∈ items, Toml.FitsDocument (write item)) :
    Writable (ofList name write items) [name] :=
  .leftOut fun _ => .entry name (fitItems_map each)

theorem writable_ofProperties (properties : Properties) :
    Writable (ofProperties name properties) [name] := by
  refine .leftOut fun full => .entry name ?_
  have fit : Toml.FitsDocument (Value.ofProperties properties) := by
    refine ⟨?_, Toml.fitEntries_iff.mpr fun entry member => ?_⟩
    · rw [List.map_map]
      exact properties.nodup_keys
    · obtain ⟨_, _, rfl⟩ := List.mem_map.mp member
      trivial
  obtain ⟨entry, member⟩ := List.exists_mem_of_ne_nil _ (show properties.entries ≠ [] by
    simpa [Table.isEmpty] using full)
  exact fits_of_fitsDocument fit (List.mem_map.mpr ⟨entry, member, rfl⟩) rfl

end
end Fields

section Records

theorem Info.fits {info : Info} (given : ¬info.isEmpty = true) : Toml.Fits (.table info.toFields) := by
  have fit := ((Fields.writable_ofOption "title" info.title).append
    (Fields.writable_ofOption "description" info.description)).fitsDocument (by decide)
  obtain ⟨title, description⟩ := info
  cases title with
  | some title => exact Fields.fits_of_fitsDocument fit List.mem_cons_self rfl
  | none =>
    cases description with
    | some description => exact Fields.fits_of_fitsDocument fit List.mem_cons_self rfl
    | none => exact absurd rfl given

theorem Import.fitsDocument (entry : Import) : Toml.FitsDocument entry.toValue :=
  ((Fields.Writable.text "mode" _).append (.text "value" _)).fitsDocument (by decide)

theorem Include.fitsDocument (entry : Include) : Toml.FitsDocument entry.toValue := by
  have words := (Fields.Writable.text "mode" entry.mode.word).append
    (.text "category" entry.category.word)
  have fields := (words.append (.text "value" entry.value)).append
    (Fields.writable_ofProperties "properties" entry.properties)
  exact fields.fitsDocument (by decide)

theorem Dependency.fitsDocument (dependency : Dependency) :
    Toml.FitsDocument dependency.toValue := by
  have includes : Toml.Fits (.list (dependency.includes.map Include.toValue)) :=
    Fields.fitItems_map fun entry _ => entry.fitsDocument
  have fields := (Fields.Writable.text "scope" dependency.scope.word).append
    (.entry "includes" includes)
  exact fields.fitsDocument (by decide)

theorem Filter.fitsDocument (filter : Filter) : Toml.FitsDocument filter.toValue :=
  ((Fields.Writable.text "token" _).append (.text "value" _)).fitsDocument (by decide)

theorem Product.fitsDocument (product : Product) : Toml.FitsDocument product.toValue := by
  have texts := (((Fields.Writable.text "id" product.id).append
    (Fields.writable_ofOption "name" product.name)).append
    (Fields.writable_ofOption "version" product.version)).append
    (Fields.writable_ofOption "source" product.source)
  have flags := ((texts.append (Fields.writable_ofFlag "test" false product.isTest)).append
    (Fields.writable_ofFlag "alias" false product.isAlias)).append
    (Fields.writable_ofFlag "export" true product.exported)
  have fields := flags.append (Fields.writable_ofProperties "properties" product.properties)
  exact fields.fitsDocument (by decide)

theorem Header.writable (header : Header) : header.toFields.Writable fieldNames := by
  have own := (((Fields.Writable.text "name" header.name).append
    (Fields.writable_ofOption "version" header.version)).append
    (.text "classifier" header.classifier.word)).append
    (Fields.writable_ofOption "basedir" header.basedir)
  have info : Fields.Writable
      (if header.info.isEmpty then [] else [("info", .table header.info.toFields)]) ["info"] :=
    .leftOut fun given => .entry "info" (Info.fits given)
  have scheme : Fields.Writable
      (if header.scheme = standardScheme then [] else [("scheme", .text header.scheme)]) ["scheme"] :=
    .leftOut fun _ => .text "scheme" header.scheme
  have plain := (((own.append info).append
    (Fields.writable_ofFlag "export" true header.exported)).append scheme).append
    (.text "kind" header.kind.word)
  have lists := (((plain.append (Fields.writable_ofProperties "properties" header.properties)).append
    (Fields.writable_ofList "types" header.products fun product _ => product.fitsDocument)).append
    (Fields.writable_ofList "dependencies" header.dependencies fun dependency _ =>
      dependency.fitsDocument)).append
    (Fields.writable_ofList "filters" header.filters fun filter _ => filter.fitsDocument)
  exact lists

mutual

theorem Declaration.fitsDocument : ∀ declaration : Declaration,
    Toml.FitsDocument declaration.toValue
  | ⟨header, nested⟩ => by
    rw [Declaration.toValue_eq]
    have inner := Fields.writable_ofList "resources" nested (Declaration.fitsDocument_of_mem nested)
    exact (header.writable.append inner).fitsDocument (by decide)

theorem Declaration.fitsDocument_of_mem : ∀ declarations : List Declaration,
    ∀ declaration ∈ declarations, Toml.FitsDocument declaration.toValue
  | [], _, member => by cases member
  | first :: rest, declaration, member => by
    rcases List.mem_cons.mp member with own | later
    · exact own ▸ Declaration.fitsDocument first
    · exact Declaration.fitsDocument_of_mem rest declaration later

end

theorem Catalog.fitsDocument (catalog : Catalog) : Toml.FitsDocument catalog.toValue := by
  have fields := ((Fields.writable_ofList "imports" catalog.imports fun entry _ =>
      entry.fitsDocument).append
    (Fields.writable_ofProperties "properties" catalog.properties)).append
    (Fields.writable_ofList "resources" catalog.resources fun resource _ => resource.fitsDocument)
  exact fields.fitsDocument (by decide)

end Records

/-- A text form keeps a tree: reading what is written gives the tree, with the entries of its tables
in some order. -/
def Value.KeptBy (tree : Value) (render : Value → String) (parse : String → Option Value) : Prop :=
  ∃ again, parse (render tree) = some again ∧ tree.Rearranged again

/-- Writing and reading undo each other, and reading from any tree leads to one written form. -/
structure RoundTrips {α : Type} (write : α → Value) (read : StorageFormat → Value → Option α) :
    Prop where
  same : ∀ format item, read format (write item) = some item
  reordered : ∀ format item tree, (write item).Rearranged tree → read format tree = some item
  throughText : ∀ (render : Value → String) (parse : String → Option Value) item,
    (write item).KeptBy render parse → (parse (render (write item))).bind (read .toml) = some item
  canonical : ∀ format value, ((read format value).map write).bind (read format) = read format value
  settled : ∀ format value form, (read format value).map write = some form →
    (read format form).map write = some form

section
variable {α : Type} {write : α → Value} {read : StorageFormat → Value → Option α}
  (reads : ∀ format item, Value.Reads (read format) (write item) item)
include reads

theorem roundTrips_of_reads (fit : ∀ item, Toml.FitsDocument (write item)) :
    RoundTrips write read := by
  have same : ∀ format item, read format (write item) = some item := fun format item =>
    reads format item _ (fit item).rearranged_self
  refine ⟨same, reads, ?throughText, ?canonical, ?settled⟩
  case throughText =>
    rintro render parse item ⟨again, parsed, rearranged⟩
    rw [parsed, Option.bind_some, reads .toml item again rearranged]
  case canonical =>
    intro format value
    cases read format value with
    | none => rfl
    | some item => exact same format item
  case settled =>
    intro format value form written
    obtain ⟨item, _, rfl⟩ := Option.map_eq_some_iff.mp written
    rw [same, Option.map_some]

end

/-- Declarations and catalogs are read back as they were written, through trees and through any text
form that keeps the written tree. The documents of this library do, unless some way to a header in
them has more parts than a key may have. -/
theorem written_reads_back :
    RoundTrips Declaration.toValue Declaration.ofValue? ∧
    RoundTrips Catalog.toValue Catalog.ofValue? ∧
    (∀ declaration : Declaration,
      (declaration.toValue.KeptBy Toml.render Toml.parse →
        Declaration.ofToml declaration.toToml = .ok declaration) ∧
      (Toml.headerDepth declaration.toValue ≤ Toml.nestingLimit →
        declaration.toValue.KeptBy Toml.render Toml.parse)) ∧
    ∀ catalog : Catalog,
      (catalog.toValue.KeptBy Toml.render Toml.parse → Catalog.ofToml catalog.toToml = .ok catalog) ∧
      (Toml.headerDepth catalog.toValue ≤ Toml.nestingLimit →
        catalog.toValue.KeptBy Toml.render Toml.parse) := by
  have declarations := roundTrips_of_reads Declaration.reads Declaration.fitsDocument
  have catalogs := roundTrips_of_reads Catalog.reads Catalog.fitsDocument
  refine ⟨declarations, catalogs, fun declaration => ⟨fun kept => ?_, ?_⟩,
    fun catalog => ⟨fun kept => ?_, ?_⟩⟩
  · rw [Declaration.ofToml, Declaration.toToml, declarations.throughText _ _ _ kept]
  · exact Toml.exists_parse_render declaration.fitsDocument
  · rw [Catalog.ofToml, Catalog.toToml, catalogs.throughText _ _ _ kept]
  · exact Toml.exists_parse_render catalog.fitsDocument

def croft : Declaration :=
  (((Declaration.module "croft \"1\"").withProperty "a.b # '" "first\nsecond\t'''\"\"\"\\").withExported
      false).withNested
    (((Declaration.resource "").withInfo "" (some "\u007f")).withInclude .test (.of .ref "barn"))

theorem written_reads_back_croft :
    Toml.headerDepth croft.toValue ≤ Toml.nestingLimit ∧
    croft.toValue.KeptBy Toml.render Toml.parse ∧ Declaration.ofToml croft.toToml = .ok croft ∧
    Declaration.ofValue? .json croft.toValue = some croft ∧
    ∃ form, (Declaration.ofValue? .json (.list [.text "croft"])).map Declaration.toValue = some form ∧
      (Declaration.ofValue? .json form).map Declaration.toValue = some form := by
  obtain ⟨declarations, _, texts, _⟩ := written_reads_back
  obtain ⟨read, kept⟩ := texts croft
  have few : Toml.headerDepth croft.toValue ≤ Toml.nestingLimit := by decide
  exact ⟨few, kept few, read (kept few), declarations.same .json croft, _, rfl,
    declarations.settled .json (.list [.text "croft"]) _ rfl⟩

end ResourceLibrary
