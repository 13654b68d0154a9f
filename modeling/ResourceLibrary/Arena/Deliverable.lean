import ResourceLibrary.Coordinate
import ResourceLibrary.Declaration.Basic
import ResourceLibrary.FilePath

/-!
Deliverables: declared products resolved against the resource that owns them, with the coordinates
and the build output that follow.
-/

namespace ResourceLibrary

structure Owner where
  name : String
  group : String
  version : Option String
  scheme : String
  basedir : Option FilePath

structure Deliverable where
  id : String
  name : String
  declaredName : Option String
  version : Option String
  source : Option String
  isTest : Bool
  isAlias : Bool
  exported : Bool
  group : String
  scheme : String
  basedir : Option FilePath
  properties : Properties

namespace Deliverable

def ofProduct (product : Product) (owner : Owner) : Deliverable :=
  { id := product.id
    name := product.name.getD owner.name
    declaredName := product.name
    version := product.version.or owner.version
    source := product.source
    isTest := product.isTest
    isAlias := product.isAlias
    exported := product.exported
    group := owner.group
    scheme := owner.scheme
    basedir := owner.basedir
    properties := product.properties }

def compoundName (deliverable : Deliverable) : String :=
  match deliverable.declaredName with
  | some name => deliverable.id ++ "#" ++ name
  | none => deliverable.id

def coordinate (deliverable : Deliverable) : Coordinate :=
  .ofParts deliverable.scheme deliverable.id deliverable.group deliverable.name deliverable.version

def linkCoordinate (deliverable : Deliverable) : Coordinate :=
  .ofParts "link" deliverable.id deliverable.group deliverable.name none

/-- File that the owner's build writes, if the owner is built from a directory. -/
def outputPath? (deliverable : Deliverable) : Option FilePath :=
  deliverable.basedir.map fun basedir =>
    if deliverable.isTest then
      basedir / "target" / "test" / (deliverable.name ++ "." ++ deliverable.id)
    else
      let version := deliverable.version.elim "" ("-" ++ ·)
      basedir / "target" / "deliverables" / (deliverable.id ++ "s") /
        (deliverable.name ++ version ++ "." ++ deliverable.id)

end Deliverable
end ResourceLibrary
