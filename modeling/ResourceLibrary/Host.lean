import ResourceLibrary.FilePath

/-!
What a library learns from the machine that it is built on: the time, and the canonical form of each
path that leads to something on its disk. Any other path is normalized lexically.
-/

namespace ResourceLibrary

structure Host where
  timestamp : String
  canonical? : FilePath → Option FilePath

namespace Host

/-- A host of which the time is known, and on whose disk no path leads anywhere. -/
def bare (timestamp : String) : Host := ⟨timestamp, fun _ => none⟩

instance : Coe String Host := ⟨bare⟩

def settle (host : Host) (path : FilePath) : FilePath :=
  (host.canonical? path).getD path.normalize

def resolveBasedir (host : Host) (anchor : FilePath) (declared : String) : FilePath :=
  host.settle (anchor.join ⟨declared⟩)

theorem settle_of_none {host : Host} {path : FilePath} (absent : host.canonical? path = none) :
    host.settle path = path.normalize := by
  rw [settle, absent, Option.getD_none]

end Host
end ResourceLibrary
