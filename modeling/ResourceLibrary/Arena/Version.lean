import ResourceLibrary.Host
import ResourceLibrary.Properties.Basic
import ResourceLibrary.Settings

/-!
Versions of resources that neither declare nor inherit one: they follow from the build signature
and from the three numbers kept in properties.
-/

namespace ResourceLibrary

/-- What is fixed for the whole of a library before its first resource. -/
structure Ground extends Host where
  rootDir : FilePath
  signature : Option String
  decimalVersions : Bool
  properties : Properties

def Ground.of (settings : Settings) (host : Host) (properties : Properties) : Ground :=
  ⟨host, host.settle settings.rootDir, settings.signature, settings.decimalVersions,
    settings.properties.overlay properties⟩

namespace Version

def snapshot : String := "SNAPSHOT"
def bootstrap : String := "BOOTSTRAP"

def timestampSignature : String := "project.timestamp"

def signatureKey : String := "build.signature"
def decimalKey : String := "project.decimal.enabled"

/-- Older key for decimal versions, which wins over the present one. -/
def decimalOverrideKey : String := "project.version-prefix.enabled"

def decimal (properties : Properties) : String :=
  let number := fun part => toString (properties.number ("project." ++ part ++ ".version") 0)
  number "major" ++ "." ++ number "minor" ++ "." ++ number "micro"

def isDecimal (ground : Ground) (properties : Properties) : Bool :=
  (properties.flag? decimalOverrideKey).getD
    ((properties.flag? decimalKey).getD ground.decimalVersions)

/-- Signature in force: the property before the settings, the time of the build for its word. -/
def signature? (ground : Ground) (properties : Properties) : Option String :=
  ((properties.get? signatureKey).or ground.signature).map fun signature =>
    if signature = timestampSignature then ground.timestamp else signature

def standard (ground : Ground) (properties : Properties) : String :=
  match signature? ground properties with
  | some signature =>
    if signature = bootstrap then bootstrap
    else if isDecimal ground properties then decimal properties ++ "-" ++ signature
    else signature
  | none => if isDecimal ground properties then decimal properties else snapshot

end Version
end ResourceLibrary
