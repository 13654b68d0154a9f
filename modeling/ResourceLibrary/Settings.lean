import ResourceLibrary.FilePath
import ResourceLibrary.Properties.Basic

/-!
Settings that a library is built with, wherever they were read from.
-/

namespace ResourceLibrary

structure Settings where
  rootDir : FilePath
  index : FilePath
  signature : Option String
  decimalVersions : Bool
  properties : Properties

namespace Settings

def defaultIndex : FilePath := ⟨"library.toml"⟩

def ofRoot (rootDir : FilePath) : Settings := ⟨rootDir, defaultIndex, none, false, ∅⟩

def indexPath (settings : Settings) : FilePath := settings.rootDir.join settings.index

end Settings
end ResourceLibrary
