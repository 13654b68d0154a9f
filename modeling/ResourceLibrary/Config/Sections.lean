import ResourceLibrary.Config.Failure
import ResourceLibrary.FilePath
import ResourceLibrary.Text.Split
import ResourceLibrary.Value

/-!
The contents of configuration files: of the user's own one and of the one that a project keeps. A
later file is merged over an earlier one.
-/

namespace ResourceLibrary.Config

structure Build where
  signature : Option String
  decimal : Option Bool
  deriving DecidableEq

structure IndexSection where
  index : Option FilePath
  deriving DecidableEq

structure Global where
  build : Option Build
  properties : Properties
  deriving DecidableEq

structure Project where
  library : Option IndexSection
  build : Option Build
  properties : Properties
  deriving DecidableEq

def isPropertyKey (key : String) : Bool :=
  key != "" && !Text.holdsPair '$' '\x7b' key.toList && !key.toList.contains '\x7d'

def checkProperties (properties : Properties) : Except Failure Unit :=
  match properties.keys.find? (!isPropertyKey ·) with
  | some key => .error (.invalidValue "properties" (.propertyKey key))
  | none => .ok ()

def checkIndex (index : FilePath) : Except Failure Unit :=
  if index.text = "" then .error (.invalidValue "library.index" .emptyIndex)
  else if index.components.any fun part => part = .root || part = .parent then
    .error (.invalidPath index.text)
  else .ok ()

namespace Build

def empty : Build := ⟨none, none⟩

def check (place : String) (build : Build) : Except Failure Unit :=
  match build.signature with
  | none => .ok ()
  | some signature =>
    let field := place ++ ".signature"
    if Text.trim signature = "" then .error (.invalidValue field .emptySignature)
    else if signature.toList.any Text.isBlank then
      .error (.invalidValue field (.blankInSignature signature))
    else .ok ()

def merge (build upper : Build) : Build :=
  ⟨upper.signature.or build.signature, upper.decimal.or build.decimal⟩

def toFields (build : Build) : Fields :=
  Fields.ofOption "signature" build.signature ++
    match build.decimal with
    | some decimal => [("decimal", .bool decimal)]
    | none => []

def ofFields? (fields : Fields) : Option Build := do
  some ⟨← fields.optional "signature" Value.text?, ← fields.optional "decimal" Value.bool?⟩

def ofValue? (format : StorageFormat) (value : Value) : Option Build :=
  (value.record? format ["signature", "decimal"] 2).bind ofFields?

end Build

def mergeBuilds : Option Build → Option Build → Option Build
  | some build, some upper => some (build.merge upper)
  | none, some upper => some upper
  | build, none => build

def checkBuild (build : Option Build) : Except Failure Unit :=
  match build with
  | some build => build.check "build"
  | none => .ok ()

def sectionField (name : String) (fields : Option Fields) : Fields :=
  match fields with
  | some fields => [(name, .table fields)]
  | none => []

namespace IndexSection

def toFields (library : IndexSection) : Fields :=
  Fields.ofOption "index" (library.index.map (·.text))

def ofFields? (fields : Fields) : Option IndexSection := do
  some ⟨(← fields.optional "index" Value.text?).map FilePath.mk⟩

def ofValue? (format : StorageFormat) (value : Value) : Option IndexSection :=
  (value.record? format ["index"] 1).bind ofFields?

end IndexSection

namespace Global

def empty : Global := ⟨none, ∅⟩

def signature? (global : Global) : Option String := global.build.bind (·.signature)

def check (global : Global) : Except Failure Unit := do
  checkBuild global.build
  checkProperties global.properties

def merge (global upper : Global) : Global :=
  ⟨mergeBuilds global.build upper.build, global.properties.overlay upper.properties⟩

def toValue (global : Global) : Value :=
  .table (sectionField "build" (global.build.map Build.toFields) ++
    Fields.ofProperties "properties" global.properties)

def ofFields? (format : StorageFormat) (fields : Fields) : Option Global := do
  some ⟨← fields.optional "build" (Build.ofValue? format),
    ← fields.withDefault "properties" ∅ Value.properties?⟩

def ofValue? (format : StorageFormat) (value : Value) : Option Global :=
  (value.record? format ["build", "properties"] 1).bind (ofFields? format)

end Global

namespace Project

def empty : Project := ⟨none, none, ∅⟩

def index? (project : Project) : Option FilePath := project.library.bind (·.index)

def check (project : Project) : Except Failure Unit := do
  match project.index? with
  | some index => checkIndex index
  | none => pure ()
  checkBuild project.build
  checkProperties project.properties

/-- The configuration with what `upper` sets laid over it; an index section is replaced as a
whole. -/
def merge (project upper : Project) : Project :=
  ⟨upper.library.or project.library, mergeBuilds project.build upper.build,
    project.properties.overlay upper.properties⟩

def toValue (project : Project) : Value :=
  .table (sectionField "library" (project.library.map IndexSection.toFields) ++
    sectionField "build" (project.build.map Build.toFields) ++
    Fields.ofProperties "properties" project.properties)

def ofFields? (format : StorageFormat) (fields : Fields) : Option Project := do
  some ⟨← fields.optional "library" (IndexSection.ofValue? format),
    ← fields.optional "build" (Build.ofValue? format),
    ← fields.withDefault "properties" ∅ Value.properties?⟩

def ofValue? (format : StorageFormat) (value : Value) : Option Project :=
  (value.record? format ["library", "build", "properties"] 2).bind (ofFields? format)

end Project
end ResourceLibrary.Config
