import ResourceLibrary.Failure
import ResourceLibrary.Properties.Basic
import ResourceLibrary.ResourcePath

/-!
Declarations: what a library index says of its modules and resources. A declaration is a header
with the declarations nested in it.
-/

namespace ResourceLibrary

structure Info where
  title : Option String
  description : Option String
  deriving DecidableEq, Inhabited

def Info.none : Info := ⟨.none, .none⟩

def Info.isEmpty (info : Info) : Bool := info.title.isNone && info.description.isNone

inductive ImportMode
  | file
  | uri
  deriving DecidableEq, Repr

structure Import where
  mode : ImportMode
  value : String
  deriving DecidableEq

inductive DeclarationKind
  | resource
  | module
  deriving DecidableEq, Repr

/-- How the value of an include is read: next to the declaring resource, from the library root, or
as an artifact coordinate. -/
inductive IncludeMode
  | key
  | ref
  | uri
  deriving DecidableEq, Repr

structure Include where
  mode : IncludeMode
  category : Category
  value : String
  properties : Properties
  deriving DecidableEq

structure Dependency where
  scope : Scope
  includes : List Include
  deriving DecidableEq

structure Filter where
  token : String
  value : String
  deriving DecidableEq

structure Product where
  id : String
  name : Option String
  version : Option String
  source : Option String
  isTest : Bool
  isAlias : Bool
  exported : Bool
  properties : Properties
  deriving DecidableEq

structure Header where
  name : String
  version : Option String
  classifier : Classifier
  basedir : Option String
  info : Info
  exported : Bool
  scheme : String
  kind : DeclarationKind
  properties : Properties
  products : List Product
  dependencies : List Dependency
  filters : List Filter
  deriving DecidableEq

structure Declaration where
  header : Header
  nested : List Declaration

structure Catalog where
  imports : List Import
  properties : Properties
  resources : List Declaration

namespace ImportMode

def all : List ImportMode := [.file, .uri]

def word : ImportMode → String
  | .file => "file"
  | .uri => "uri"

def standard : ImportMode := .uri
def ofWord? (text : String) : Option ImportMode := all.find? (·.word == text)

theorem ofWord?_word (mode : ImportMode) : ofWord? mode.word = some mode := by
  cases mode <;> decide

end ImportMode

namespace DeclarationKind

def all : List DeclarationKind := [.resource, .module]

def word : DeclarationKind → String
  | .resource => "resource"
  | .module => "module"

def standard : DeclarationKind := .resource
def ofWord? (text : String) : Option DeclarationKind := all.find? (·.word == text)

theorem ofWord?_word (kind : DeclarationKind) : ofWord? kind.word = some kind := by
  cases kind <;> decide

end DeclarationKind

namespace IncludeMode

def all : List IncludeMode := [.key, .ref, .uri]

def word : IncludeMode → String
  | .key => "key"
  | .ref => "ref"
  | .uri => "uri"

def standard : IncludeMode := .key
def ofWord? (text : String) : Option IncludeMode := all.find? (·.word == text)

theorem ofWord?_word (mode : IncludeMode) : ofWord? mode.word = some mode := by
  cases mode <;> decide

end IncludeMode

def Include.of (mode : IncludeMode) (value : String) : Include := ⟨mode, .standard, value, ∅⟩

def Product.ofId (id : String) : Product := ⟨id, none, none, none, false, false, true, ∅⟩

namespace Header

def standardScheme : String := "artifact"

def of (kind : DeclarationKind) (name : String) : Header :=
  ⟨name, none, .standard, none, .none, true, standardScheme, kind, ∅, [], [], []⟩

def isModule (header : Header) : Bool := header.kind = .module
def isProject (header : Header) : Bool := header.classifier = .project
def isAnonymous (header : Header) : Bool := header.classifier = .anonymous

def dependency? (header : Header) (scope : Scope) : Option Dependency :=
  header.dependencies.find? (·.scope = scope)

def includes (header : Header) (scope : Scope) (category : Option Category) : List Include :=
  ((header.dependencies.filter (·.scope = scope)).flatMap (·.includes)).filter fun entry =>
    category.all (entry.category = ·)

theorem mem_includes_iff {header : Header} {scope : Scope} {category : Option Category}
    {entry : Include} :
    entry ∈ header.includes scope category ↔
      (∃ dependency ∈ header.dependencies, dependency.scope = scope ∧ entry ∈ dependency.includes) ∧
        category.all (entry.category = ·) = true := by
  simp [includes, and_assoc]

def product (header : Header) (id : String) : Except Failure Product :=
  match header.products.find? (·.id = id) with
  | some product => .ok product
  | none => .error (.typeNotFound id header.name)

def includeUnder (scope : Scope) (entry : Include) : List Dependency → List Dependency
  | [] => [⟨scope, [entry]⟩]
  | first :: rest =>
    if first.scope = scope then ⟨scope, first.includes ++ [entry]⟩ :: rest
    else first :: includeUnder scope entry rest

end Header

namespace Declaration

def resource (name : String) : Declaration := ⟨.of .resource name, []⟩
def module (name : String) : Declaration := ⟨.of .module name, []⟩

def edit (change : Header → Header) (declaration : Declaration) : Declaration :=
  ⟨change declaration.header, declaration.nested⟩

def withVersion (version : String) : Declaration → Declaration :=
  edit fun h => { h with version := some version }

def withClassifier (classifier : Classifier) : Declaration → Declaration :=
  edit fun h => { h with classifier := classifier }

def withBasedir (basedir : String) : Declaration → Declaration :=
  edit fun h => { h with basedir := some basedir }

def withInfo (title : String) (description : Option String) : Declaration → Declaration :=
  edit fun h => { h with info := ⟨some title, description⟩ }

def withExported (exported : Bool) : Declaration → Declaration :=
  edit fun h => { h with exported := exported }

def withScheme (scheme : String) : Declaration → Declaration :=
  edit fun h => { h with scheme := scheme }

def withProperty (key value : String) : Declaration → Declaration :=
  edit fun h => { h with properties := h.properties.insert key value }

def withProduct (product : Product) : Declaration → Declaration :=
  edit fun h => { h with products := h.products ++ [product] }

def withInclude (scope : Scope) (entry : Include) : Declaration → Declaration :=
  edit fun h => { h with dependencies := Header.includeUnder scope entry h.dependencies }

def withFilter (token value : String) : Declaration → Declaration :=
  edit fun h => { h with filters := h.filters ++ [⟨token, value⟩] }

def withNested (declaration inner : Declaration) : Declaration :=
  ⟨declaration.header, declaration.nested ++ [inner]⟩

def project (name basedir : String) : Declaration :=
  ((resource name).withClassifier .project).withBasedir basedir

def anonymous (scheme name : String) (version : Option String) (kind : String)
    (properties : Properties) : Declaration :=
  (resource name).edit fun h =>
    { h with
      scheme := scheme, version := version, classifier := .anonymous, properties := properties,
      products := [.ofId kind] }

def wrap (modules : List String) (declaration : Declaration) : Declaration :=
  modules.foldr (fun name inner => ⟨.of .module name, [inner]⟩) declaration

/-- The declaration renamed and wrapped in modules so that it lands at the path of a reference. -/
def placedAt (reference : String) (declaration : Declaration) : Except Failure Declaration := do
  let path ← ResourcePath.parse reference
  .ok (wrap path.segments.dropLast (declaration.edit fun h => { h with name := path.name }))

def alone (declaration : Declaration) : Declaration := ⟨declaration.header, []⟩

end Declaration

namespace Catalog

def empty : Catalog := ⟨[], ∅, []⟩

def withImport (entry : Import) (catalog : Catalog) : Catalog :=
  { catalog with imports := catalog.imports ++ [entry] }

def withProperty (key value : String) (catalog : Catalog) : Catalog :=
  { catalog with properties := catalog.properties.insert key value }

def withResource (resource : Declaration) (catalog : Catalog) : Catalog :=
  { catalog with resources := catalog.resources ++ [resource] }

end Catalog

theorem eq_wrap_of_placedAt {reference : String} {declaration placed : Declaration}
    (read : declaration.placedAt reference = .ok placed) :
    ∃ path, ResourcePath.parse reference = .ok path ∧
      placed = Declaration.wrap path.segments.dropLast
        (declaration.edit fun h => { h with name := path.name }) := by
  unfold Declaration.placedAt at read
  cases found : ResourcePath.parse reference with
  | error failure => simp [found, bind, Except.bind] at read
  | ok path =>
    simp only [found, bind, Except.bind, Except.ok.injEq] at read
    exact ⟨path, rfl, read.symm⟩

end ResourceLibrary
