import ResourceLibrary.Glob
import ResourceLibrary.Library.Order

/-!
Selection below a module by criteria. A leading token chooses modules, the last one resources; a
token of two stars reaches over any number of modules, none included.
-/

namespace ResourceLibrary.Query

def selectModules (id : ResourceId) (token : String) : Query (List ResourceId) := do
  let nodes ← nodes
  let node := nodes id
  if token = "**" then allModules id !node.isRoot
  else
    let modules := childModules nodes node
    if token = "*" then return modules
    else return modules.filter fun child => Glob.accepts token.toList (nodes child).name.toList

/-- Resources that the last token names; after a deep token a star also stands for the module. -/
def selectLast (deep : Bool) (id : ResourceId) (token : String) : Query (List ResourceId) := do
  let nodes ← nodes
  let node := nodes id
  if token = "**" then allModules id !node.isRoot
  else if token = "*" then return node.children ++ if deep && !node.isRoot then [id] else []
  else return node.children.filter fun child =>
    Glob.accepts token.toList (nodes child).name.toList

def selectTokens (deep : Bool) (id : ResourceId) : List String → Query (List ResourceId)
  | [] => return []
  | [token] => selectLast deep id token
  | token :: next :: rest => do
    let modules ← selectModules id token
    let below ← modules.mapM fun module => selectTokens (Glob.isDeep token) module (next :: rest)
    let here ← if Glob.isDeep token then selectTokens true id (next :: rest) else pure []
    return distinct (below.flatten ++ here)

def selectIds (id : ResourceId) (criteria : String) (onlyLocal : Bool) :
    Query (List ResourceId) := do
  let found ← selectTokens false id (Glob.tokens criteria)
  let nodes ← nodes
  return if onlyLocal then found.filter fun id => (nodes id).basedir.isSome else found

def everything : String := "**/*"

def pathOrder (a b : Node) : Bool := if a.path = b.path then a.id ≤ b.id else a.path < b.path

def comparePaths (a b : Node) : Ordering :=
  if a.id = b.id then .eq else if pathOrder a b then .lt else .gt

def arranged (ids : List ResourceId) (scope : Scope) (sorted : Bool) :
    Query (List ResourceId) := do
  if sorted then sort ids scope false
  else
    let nodes ← nodes
    return ids.mergeSort fun a b => pathOrder (nodes a) (nodes b)

def select (id : ResourceId) (criteria : String) (onlyLocal sorted : Bool) :
    Query (List ResourceId) := do
  arranged (← selectIds id criteria onlyLocal) .test sorted

def locate (id : ResourceId) (base : FilePath) : Query ResourceId := do
  let base ← settle base
  let found ← selectIds id everything true
  let nodes ← nodes
  match found.find? fun id => (nodes id).basedir.any base.same with
  | some id => return id
  | none => throw (.resourceNotFound base.text)

def selectBasedir (base : FilePath) (includeSelf : Bool) : Query (List ResourceId) := do
  let base ← settle base
  let found ← selectIds Library.root everything true
  let nodes ← nodes
  let chosen := found.filter fun id => (nodes id).basedir.any fun basedir =>
    if basedir.same base then includeSelf else basedir.startsWith base
  sort chosen .test false

end ResourceLibrary.Query
