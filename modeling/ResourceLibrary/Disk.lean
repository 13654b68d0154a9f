import ResourceLibrary.Config.Failure
import ResourceLibrary.FilePath

/-!
Disks: folders and files by their place. A path is followed part by part, from the root or from the
working folder; each part must stand in a folder that is there. There are no links, so two dots
always lead to the enclosing folder. No name holds the null character, and names and paths are
limited in length.
-/

namespace ResourceLibrary

inductive Stored
  | folder
  | file (content : String)
  deriving DecidableEq

abbrev Place := List String

/-- What is stored at each place, and where relative paths start, if there is a working folder. The
root is always a folder. -/
structure Disk where
  entries : List (Place × Stored)
  working : Option Place

namespace Disk

def empty : Disk := ⟨[], none⟩

def stored? (disk : Disk) (place : Place) : Option Stored :=
  if place.isEmpty then some .folder else disk.entries.lookup place

def put (disk : Disk) (place : Place) (stored : Stored) : Disk :=
  { disk with entries := (place, stored) :: disk.entries }

def withFolder (disk : Disk) (place : Place) : Disk :=
  let around := (List.range (place.length + 1)).map place.take
  around.foldl (fun disk place =>
    if (disk.stored? place).isSome then disk else disk.put place .folder) disk

def withFile (disk : Disk) (place : Place) (content : String) : Disk :=
  (disk.withFolder place.dropLast).put place (.file content)

def nameLimit : Nat := 255

def pathLimit : Nat := 4095

def step (disk : Disk) (place : Place) (part : String) : Except IoCause Place :=
  match disk.stored? place with
  | none => .error .notFound
  | some (.file _) => .error .notDirectory
  | some .folder =>
    if part = "" || part = "." then .ok place
    else if part = ".." then .ok place.dropLast
    else if part.utf8ByteSize > nameLimit then .error .nameTooLong
    else .ok (place ++ [part])

def start? (disk : Disk) (path : FilePath) : Option Place :=
  if path.isAbsolute then some []
  else if path.text = "" then none
  else disk.working

def place (disk : Disk) (path : FilePath) : Except IoCause Place :=
  if path.text.toList.contains '\x00' then .error .nulInName
  else if path.text.utf8ByteSize > pathLimit then .error .nameTooLong
  else match disk.start? path with
    | some start => path.pieces.foldlM disk.step start
    | none => .error .notFound

def find (disk : Disk) (path : FilePath) : Except IoCause Stored := do
  match disk.stored? (← disk.place path) with
  | some stored => .ok stored
  | none => .error .notFound

def read (disk : Disk) (path : FilePath) : Except IoCause String := do
  match ← disk.find path with
  | .file content => .ok content
  | .folder => .error .isDirectory

def holds (disk : Disk) (path : FilePath) : Bool := (disk.find path).isOk

/-- The way from the root to what a path leads to, if it leads to something. -/
def canonical? (disk : Disk) (path : FilePath) : Option FilePath :=
  match disk.place path with
  | .ok place => (disk.stored? place).map fun _ => ⟨"/" ++ "/".intercalate place⟩
  | .error _ => none

end Disk
end ResourceLibrary
