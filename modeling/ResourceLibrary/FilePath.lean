import ResourceLibrary.Text.Split

/-!
Paths on disk. A path keeps its text; its components are the root, `.` at the head of a relative
path, `..` and names. Normalization is lexical: it drops `.` and lets `..` remove the component
before it.
-/

namespace ResourceLibrary

inductive Component
  | root
  | current
  | parent
  | name (text : String)
  deriving DecidableEq, Repr

def Component.text : Component → String
  | .root => "/"
  | .current => "."
  | .parent => ".."
  | .name text => text

structure FilePath where
  text : String
  deriving DecidableEq, Inhabited

namespace FilePath

def isAbsolute (path : FilePath) : Bool := path.text.toList.head? = some '/'

/-- The parts of a path between its slashes, without the empty one before a leading slash. -/
def pieces (path : FilePath) : List String :=
  let parts := Text.split '/' path.text
  if path.isAbsolute then parts.drop 1 else parts

def component? (part : String) : Option Component :=
  if part = "" || part = "." then none
  else if part = ".." then some .parent
  else some (.name part)

def components (path : FilePath) : List Component :=
  if path.isAbsolute then .root :: path.pieces.filterMap component?
  else match path.pieces with
    | "." :: rest => .current :: rest.filterMap component?
    | parts => parts.filterMap component?

def ofComponents : List Component → FilePath
  | .root :: rest => ⟨"/" ++ "/".intercalate (rest.map Component.text)⟩
  | parts => ⟨"/".intercalate (parts.map Component.text)⟩

/-- One step of lexical normalization; the innermost component stands first. -/
def descend (stack : List Component) : Component → List Component
  | .root => [.root]
  | .current => stack
  | .name text => .name text :: stack
  | .parent => match stack with
    | [] => [.parent]
    | [.root] => [.parent, .root]
    | _ :: rest => rest

/-- Components after lexical normalization. `..` at the root or at an empty path stays, and is
itself removed by a `..` that follows. -/
def normalized (parts : List Component) : List Component := (parts.foldl descend []).reverse

def normalize (path : FilePath) : FilePath := ofComponents (normalized path.components)

def join (path other : FilePath) : FilePath :=
  if other.isAbsolute || path.text.isEmpty then other
  else if path.text.toList.getLast? = some '/' then ⟨path.text ++ other.text⟩
  else ⟨path.text ++ "/" ++ other.text⟩

instance : HDiv FilePath String FilePath := ⟨fun path name => path.join ⟨name⟩⟩

def same (path other : FilePath) : Bool := path.components == other.components

def startsWith (path base : FilePath) : Bool := base.components.isPrefixOf path.components

def fromLastComponent (absolute : Bool) : List String → List String
  | [] => []
  | part :: rest =>
    if part = "" || (part = "." && (absolute || !rest.isEmpty)) then fromLastComponent absolute rest
    else part :: rest

def parent? (path : FilePath) : Option FilePath :=
  match fromLastComponent path.isAbsolute path.pieces.reverse with
  | [] => none
  | _ :: rest =>
    let kept := "/".intercalate (fromLastComponent path.isAbsolute rest).reverse
    some ⟨if path.isAbsolute then "/" ++ kept else kept⟩

theorem length_fromLastComponent (absolute : Bool) (parts : List String) :
    (fromLastComponent absolute parts).length ≤ parts.length := by
  induction parts with
  | nil => simp [fromLastComponent]
  | cons part rest ih =>
    rw [fromLastComponent]
    split
    · exact Nat.le_succ_of_le ih
    · exact Nat.le_refl _

/-- The path and all its parents, nearest first. A parent has fewer parts, so their number bounds
the climb. -/
def ancestors (path : FilePath) : List FilePath := climb (path.pieces.length + 1) path
where
  climb : Nat → FilePath → List FilePath
    | 0, _ => []
    | steps + 1, path => path :: match path.parent? with
      | some parent => climb steps parent
      | none => []

@[simp] theorem same_refl (path : FilePath) : path.same path = true := beq_self_eq_true _

theorem startsWith_iff (path base : FilePath) :
    path.startsWith base = true ↔ base.components <+: path.components :=
  List.isPrefixOf_iff_prefix

end FilePath
end ResourceLibrary
