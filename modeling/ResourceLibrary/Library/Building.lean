import ResourceLibrary.Library.Basic

/-!
Building a library from a catalog. Imported modules are loaded first, in order, and then stand
before the declared resources. Main statement: a catalog with imports builds what the catalog of the
loaded modules and the declared resources builds.
-/

namespace ResourceLibrary

abbrev ImportLoader := String → Except Failure Declaration

namespace ImportLoader

def none : ImportLoader := fun uri => .error (.unsupportedImport uri .noLoader)

def ofTable (modules : Table Declaration) : ImportLoader := fun uri =>
  match modules.get? uri with
  | some declaration => .ok declaration
  | Option.none => .error (.resourceNotFound uri)

end ImportLoader

def Import.load (load : ImportLoader) (entry : Import) : Except Failure Declaration :=
  match entry.mode with
  | .file => .error (.unsupportedImport entry.value .fileMode)
  | .uri => do
    let declaration ← load entry.value
    if declaration.header.isModule then .ok declaration
    else .error (.invalidImport entry.value)

namespace Library

def ofDeclarations (settings : Settings) (ground : Ground) (declarations : List Declaration) :
    Except Failure Library := do
  let arena ← (Arena.start ground root).addAll ground root declarations
  .ok ⟨settings, ground, arena.nodes⟩

def build (settings : Settings) (host : Host) (load : ImportLoader) (catalog : Catalog) :
    Except Failure Library := do
  let imported ← catalog.imports.mapM (·.load load)
  ofDeclarations settings (.of settings host catalog.properties)
    (imported ++ catalog.resources)

theorem build_of_imports (settings : Settings) (host : Host) (load : ImportLoader)
    (catalog : Catalog) {imported : List Declaration}
    (loaded : catalog.imports.mapM (·.load load) = .ok imported) :
    build settings host load catalog =
      build settings host .none ⟨[], catalog.properties, imported ++ catalog.resources⟩ := by
  simp only [build, loaded]
  rfl

end Library
end ResourceLibrary
