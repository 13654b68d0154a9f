import ResourceLibrary.Failure
import ResourceLibrary.Text.Split

/-!
Resource paths: the names on the way from the library root, whose own path is empty.
-/

namespace ResourceLibrary

structure ResourcePath where
  segments : List String
  deriving DecidableEq, Inhabited, Repr

namespace ResourcePath

def root : ResourcePath := ⟨[]⟩

def text (path : ResourcePath) : String := "/".intercalate path.segments

def body (reference : String) : List Char :=
  match reference.toList with
  | '/' :: rest => rest
  | cs => cs

def parse (reference : String) : Except Failure ResourcePath :=
  if (body reference).isEmpty then .error (.invalidPath reference .emptyReference)
  else
    let segments := Text.fields '/' (body reference)
    if segments.any List.isEmpty then .error (.invalidPath reference .emptySegment)
    else .ok ⟨segments.map String.ofList⟩

def child (path : ResourcePath) (name : String) : ResourcePath := ⟨path.segments ++ [name]⟩

def parent? (path : ResourcePath) : Option ResourcePath :=
  if path.segments.isEmpty then none else some ⟨path.segments.dropLast⟩

def name (path : ResourcePath) : String := path.segments.getLast?.getD ""

def length (path : ResourcePath) : Nat := path.segments.length
def isRoot (path : ResourcePath) : Bool := path.segments.isEmpty

def startsWith (path base : ResourcePath) : Bool := base.segments.isPrefixOf path.segments

instance : LT ResourcePath := ⟨fun a b => a.segments < b.segments⟩
instance (a b : ResourcePath) : Decidable (a < b) :=
  inferInstanceAs (Decidable (a.segments < b.segments))

def compare (a b : ResourcePath) : Ordering := if a < b then .lt else if a = b then .eq else .gt

@[simp] theorem parent?_child (path : ResourcePath) (name : String) :
    (path.child name).parent? = some path := by
  simp [child, parent?]

@[simp] theorem name_child (path : ResourcePath) (segment : String) :
    (path.child segment).name = segment := by
  simp [child, name]

theorem startsWith_iff (path base : ResourcePath) :
    path.startsWith base = true ↔ base.segments <+: path.segments :=
  List.isPrefixOf_iff_prefix

end ResourcePath
end ResourceLibrary
