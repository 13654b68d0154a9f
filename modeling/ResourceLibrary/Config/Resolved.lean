import ResourceLibrary.Config.Sections
import ResourceLibrary.Disk
import ResourceLibrary.Settings
import ResourceLibrary.Toml.Document

/-!
Configuration resolved from its sources: the user's file, the project's file over it, and the
environment over both. A project is found from a directory upwards.
-/

namespace ResourceLibrary.Config

def projectFile : String := "depot.toml"

structure Environment where
  signature : Option String
  decimal : Option String
  index : Option String

structure Source where
  disk : Disk
  environment : Environment
  globalPath : FilePath

def globalDirectory (home : FilePath) : FilePath := home / ".depot"

def globalFile (home : FilePath) : FilePath := globalDirectory home / "config.toml"

def readFile {α : Type} (disk : Disk) (path : FilePath) (ofValue? : Value → Option α)
    (check : α → Except Failure Unit) : Except Failure α := do
  let content ← match disk.read path with
    | .ok content => .ok content
    | .error .notFound => .error (.notFound path.text)
    | .error cause => .error (.unreadable cause)
  match (Toml.parse content).bind ofValue? with
  | some config => do
    check config
    .ok config
  | none => .error (.malformed path.text)

def Project.read (disk : Disk) (path : FilePath) : Except Failure Project :=
  readFile disk path (Project.ofValue? .toml) Project.check

def Global.read (disk : Disk) (path : FilePath) : Except Failure Global :=
  readFile disk path (Global.ofValue? .toml) Global.check

structure Resolved where
  project : Project
  global : Global
  rootDir : FilePath
  hasProjectFile : Bool

def readFlag (field text : String) : Except Failure Bool :=
  let word := text.toLower
  if ["true", "1", "yes"].contains word then .ok true
  else if ["false", "0", "no"].contains word then .ok false
  else .error (.invalidValue field (.notABoolean text))

namespace Environment

def overSignature (environment : Environment) (build : Option Build) :
    Except Failure (Option Build) :=
  match environment.signature with
  | none => .ok build
  | some signature => do
    let build := { build.getD .empty with signature := some signature }
    build.check "DEPOT_BUILD_SIGNATURE"
    .ok (some build)

def overDecimal (environment : Environment) (build : Option Build) :
    Except Failure (Option Build) :=
  match environment.decimal with
  | none => .ok build
  | some text => do
    let decimal ← readFlag "DEPOT_DECIMAL_VERSIONING" text
    .ok (some { build.getD .empty with decimal := some decimal })

def overIndex (environment : Environment) (library : Option IndexSection) :
    Except Failure (Option IndexSection) :=
  match environment.index with
  | none => .ok library
  | some index => do
    checkIndex ⟨index⟩
    .ok (some ⟨some ⟨index⟩⟩)

def overlay (environment : Environment) (project : Project) : Except Failure Project := do
  let signed ← environment.overSignature project.build
  let decided ← environment.overDecimal signed
  let library ← environment.overIndex project.library
  .ok { project with library := library, build := decided }

end Environment

namespace Source

def global (source : Source) : Except Failure Global :=
  if source.disk.holds source.globalPath then Global.read source.disk source.globalPath
  else .ok .empty

def nearest? (source : Source) (start : FilePath) (file : String) : Option FilePath :=
  start.ancestors.find? fun dir => source.disk.holds (dir / file)

/-- Resolves what holds in a directory. Where no project file is found, the nearest directory with
an index is the root, else the directory itself. -/
def resolveIn (source : Source) (start : FilePath) : Except Failure Resolved := do
  let (rootDir, project, found) ← match source.nearest? start projectFile with
    | some dir => do pure (dir, ← Project.read source.disk (dir / projectFile), true)
    | none =>
      let rootDir := (source.nearest? start Settings.defaultIndex.text).getD start
      pure (rootDir, Project.empty, false)
  let global ← source.global
  let project ← source.environment.overlay project
  .ok ⟨project, global, rootDir, found⟩

def resolveFile (source : Source) (path : FilePath) : Except Failure Resolved := do
  let project ← Project.read source.disk path
  let global ← source.global
  let project ← source.environment.overlay project
  match path.parent? with
  | some rootDir => .ok ⟨project, global, rootDir, true⟩
  | none => .error (.invalidPath path.text)

end Source

namespace Resolved

def signature? (resolved : Resolved) : Option String :=
  (resolved.project.build.bind (·.signature)).or resolved.global.signature?

def decimalVersions (resolved : Resolved) : Bool :=
  ((resolved.project.build.bind (·.decimal)).or (resolved.global.build.bind (·.decimal))).getD false

def settings (resolved : Resolved) : Settings :=
  { rootDir := resolved.rootDir
    index := resolved.project.index?.getD Settings.defaultIndex
    signature := resolved.signature?
    decimalVersions := resolved.decimalVersions
    properties := resolved.global.properties.overlay resolved.project.properties }

end Resolved
end ResourceLibrary.Config
