import ResourceLibrary.Library.Basic
import ResourceLibrary.Text.Quoted

/-!
Nodes and libraries shown for inspection.
-/

namespace ResourceLibrary

def Node.inspect (node : Node) : String :=
  let version := node.version.elim "None" fun version => "Some(" ++ Text.quoted version ++ ")"
  "Resource \x7b id: ResourceId(" ++ toString node.id ++ "), path: " ++
    Text.quoted node.path.text ++ ", version: " ++ version ++ " \x7d"

def Node.inspectModule (node : Node) : String := "Module(" ++ node.inspect ++ ")"

def Library.inspect (library : Library) : String :=
  "Library \x7b root_dir: " ++ Text.quoted library.ground.rootDir.text ++ ", resources: " ++
    toString library.size ++ " \x7d"

end ResourceLibrary
