import ResourceLibrary.Arena.Node
import ResourceLibrary.Arena.Version
import ResourceLibrary.Properties.Substitution

/-!
The arena that holds the nodes of a tree, and its growth by declarations. A declaration either
becomes a new node or merges into the module of its name; then the declarations nested in it are
added in order below that node. Main statement: adding a list of declarations is adding its parts
one after the other.
-/

namespace ResourceLibrary

/-- Nodes numbered from `base` on; the first one is the root. -/
structure Arena where
  base : ResourceId
  nodes : Array Node

namespace Arena

def start (ground : Ground) (base : ResourceId) : Arena :=
  ⟨base, #[.root base ground.properties]⟩

def root (arena : Arena) : ResourceId := arena.base

def node? (arena : Arena) (id : ResourceId) : Option Node :=
  if arena.base ≤ id then arena.nodes[id - arena.base]? else none

def node (arena : Arena) (id : ResourceId) : Node := (arena.node? id).getD .absent

def next (arena : Arena) : ResourceId := arena.base + arena.nodes.size

def find? (arena : Arena) (start : ResourceId) (path : ResourcePath) : Option ResourceId :=
  path.segments.foldlM (fun id name => (arena.node id).child? name) start

def push (arena : Arena) (parent : ResourceId) (name : String) (node : Node) : Arena :=
  ⟨arena.base, (arena.nodes.push node).modify (parent - arena.base) (·.withChild name node.id)⟩

end Arena

def Node.anchor (ground : Ground) (node : Node) : FilePath := node.basedir.getD ground.rootDir

def Declaration.admit (parent : Node) (declaration : Declaration) : Except Failure Unit := do
  let header := declaration.header
  if !parent.isModule then
    .error (.invalidDeclaration parent.path.text .insidePlainResource)
  if !header.isModule && !declaration.nested.isEmpty then
    .error (.invalidDeclaration (parent.path.child header.name).text .nestedInPlainResource)
  if header.name = "" || header.name.toList.contains '/' then
    .error (.invalidPath header.name .notOneSegment)

namespace Header

def agree (ground : Ground) (parent module : Node) (header : Header) : Except Failure Unit := do
  let conflict := fun reason => Except.error (.structuralConflict module.path.text reason)
  if let (some incoming, some present) := (header.basedir, module.basedir) then
    let resolved := ground.resolveBasedir (parent.anchor ground) (module.properties.resolve incoming)
    if !resolved.same present then
      conflict (.basedirs present.text resolved.text)
  if let (some incoming, some present) := (header.version, module.header.bind (·.version)) then
    if incoming ≠ present then
      conflict (.versions present incoming)
  if !header.products.isEmpty then
    conflict .products
  if !header.dependencies.isEmpty then
    conflict .dependencies

def inherited (parent : Node) (header : Header) : Properties :=
  parent.properties.overlay header.properties

def basedir? (ground : Ground) (parent : Node) (header : Header) :
    Except Failure (Option FilePath) :=
  match header.basedir with
  | some declared =>
    .ok (some (ground.resolveBasedir (parent.anchor ground)
      ((header.inherited parent).resolve declared)))
  | none =>
    if header.isProject then
      .error (.invalidDeclaration (parent.path.child header.name).text .missingBasedir)
    else .ok none

/-- Declared version, else the inherited one; an anonymous resource inherits none. -/
def statutoryVersion? (parent : Node) (header : Header) : Option String :=
  header.version.or (if header.isAnonymous then none else parent.statutoryVersion)

def version? (ground : Ground) (parent : Node) (header : Header) : Option String :=
  (header.statutoryVersion? parent).or
    (if header.isAnonymous then none
    else some (Version.standard ground (header.inherited parent)))

def node (ground : Ground) (parent : Node) (id : ResourceId) (header : Header)
    (basedir : Option FilePath) : Node :=
  let group := parent.path.text
  let version := header.version? ground parent
  let named := ((header.inherited parent).insert "project.name" header.name).insert
    "project.group" group
  let versioned := version.elim named (named.insert "project.version")
  let properties := basedir.elim versioned fun dir => versioned.insert "basedir" dir.text
  { id := id
    path := parent.path.child header.name
    parent := some parent.id
    header := some header
    basedir := basedir
    properties := properties
    statutoryVersion := header.statutoryVersion? parent
    version := version
    deliverables := header.products.map fun product =>
      .ofProduct product ⟨header.name, group, version, header.scheme, basedir⟩
    filters := .ofList (header.filters.map fun filter => (filter.token, filter.value))
    body := if header.isModule then .module false ∅ else .plain }

end Header

namespace Arena

def enter (ground : Ground) (arena : Arena) (parent : ResourceId) (header : Header) :
    Except Failure (ResourceId × Arena) :=
  let above := arena.node parent
  match above.child? header.name with
  | some present =>
    if (arena.node present).isModule && header.isModule then
      (header.agree ground above (arena.node present)).map fun _ => (present, arena)
    else .error (.duplicateKey header.name above.path.text)
  | none =>
    (header.basedir? ground above).map fun basedir =>
      (arena.next, arena.push parent header.name (header.node ground above arena.next basedir))

mutual

def add (ground : Ground) (arena : Arena) (parent : ResourceId) :
    Declaration → Except Failure (ResourceId × Arena)
  | ⟨header, nested⟩ => do
    Declaration.admit (arena.node parent) ⟨header, nested⟩
    let (id, entered) ← arena.enter ground parent header
    let grown ← entered.addAll ground id nested
    .ok (id, grown)

def addAll (ground : Ground) (arena : Arena) (parent : ResourceId) :
    List Declaration → Except Failure Arena
  | [] => .ok arena
  | declaration :: rest => do
    let (_, grown) ← arena.add ground parent declaration
    grown.addAll ground parent rest

end

theorem addAll_append (ground : Ground) (arena : Arena) (parent : ResourceId)
    (first second : List Declaration) :
    arena.addAll ground parent (first ++ second) =
      (arena.addAll ground parent first).bind (·.addAll ground parent second) := by
  induction first generalizing arena with
  | nil => simp [addAll, Except.bind]
  | cons declaration rest ih =>
    simp only [List.cons_append, addAll, bind]
    cases arena.add ground parent declaration with
    | error failure => rfl
    | ok grown => simp [Except.bind, ih]

end Arena
end ResourceLibrary
