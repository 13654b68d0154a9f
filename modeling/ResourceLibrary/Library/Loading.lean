import ResourceLibrary.Config.Resolved
import ResourceLibrary.Declaration.Written
import ResourceLibrary.Library.Building
import ResourceLibrary.Toml.Render

/-!
Declarations and libraries read from documents and from disk.
-/

namespace ResourceLibrary

def Declaration.toToml (declaration : Declaration) : String := Toml.render declaration.toValue
def Catalog.toToml (catalog : Catalog) : String := Toml.render catalog.toValue

def Declaration.ofToml (document : String) : Except Failure Declaration :=
  match (Toml.parse document).bind (Declaration.ofValue? .toml) with
  | some declaration => .ok declaration
  | none => .error .malformedDirective

def Catalog.ofToml (document : String) : Except Failure Catalog :=
  match (Toml.parse document).bind (Catalog.ofValue? .toml) with
  | some catalog => .ok catalog
  | none => .error .malformedDirective

def Disk.document (disk : Disk) (path : FilePath) : Except Failure String :=
  match disk.read path with
  | .ok content => .ok content
  | .error cause => .error (.io path.text cause)

def Declaration.ofFile (disk : Disk) (path : FilePath) : Except Failure Declaration := do
  Declaration.ofToml (← disk.document path)

def Catalog.ofFile (disk : Disk) (path : FilePath) : Except Failure Catalog := do
  Catalog.ofToml (← disk.document path)

def withoutStart (start text : List Char) : List Char :=
  if start.isPrefixOf text then text.drop start.length else text

def holdsAuthority : List Char → Bool
  | ':' :: '/' :: '/' :: _ => true
  | _ :: rest => holdsAuthority rest
  | [] => false

/-- Loader that finds modules in files, by path or by a `file` address; a relative path starts from
the root directory. -/
def ImportLoader.ofDisk (disk : Disk) (rootDir : FilePath) : ImportLoader := fun uri =>
  let location := withoutStart "//".toList (withoutStart "file:".toList uri.toList)
  if holdsAuthority location then .error (.unsupportedImport uri .notOnDisk)
  else Declaration.ofFile disk (rootDir.join ⟨String.ofList location⟩)

namespace Library

def load (disk : Disk) (timestamp : String) (settings : Settings) : Except Failure Library := do
  let catalog ← Catalog.ofFile disk settings.indexPath
  build settings ⟨timestamp, disk.canonical?⟩ (.ofDisk disk settings.rootDir) catalog

def discover (source : Config.Source) (timestamp : String) (start : FilePath) :
    Except Failure Library :=
  match source.resolveIn start with
  | .error failure => .error (.config failure)
  | .ok resolved => load source.disk timestamp resolved.settings

end Library
end ResourceLibrary
