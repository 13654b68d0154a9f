import ResourceLibrary.Library.Basic

/-!
References: a way down the tree by names, from the library root or from a module. Main statement:
a way is walked by walking its parts one after the other.
-/

namespace ResourceLibrary

/-- Walks down from a node by names. A plain resource on the way and a missing name are different
failures; `passed` holds the names on the way so far. -/
def descend (nodes : ResourceId → Node) (start : ResourceId) (reference : String) :
    List String → ResourceId → List String → Except Failure ResourceId
  | _, id, [] => .ok id
  | passed, id, name :: rest =>
    if !(nodes id).isModule then
      .error (.notAModule ("/".intercalate passed) (nodes start).path.text)
    else match (nodes id).child? name with
      | none => .error (.resourceNotFound reference)
      | some child => descend nodes start reference (passed ++ [name]) child rest

def resolve (nodes : ResourceId → Node) (start : ResourceId) (reference : String) :
    Except Failure ResourceId := do
  descend nodes start reference [] start (← ResourcePath.parse reference).segments

def resolveModule (nodes : ResourceId → Node) (start : ResourceId) (reference : String) :
    Except Failure ResourceId :=
  match resolve nodes start reference with
  | .error (.resourceNotFound _) => .error (.moduleNotFound reference (nodes start).path.text)
  | .error failure => .error failure
  | .ok id =>
    if (nodes id).isModule then .ok id
    else .error (.notAModule reference (nodes start).path.text)

theorem descend_append (nodes : ResourceId → Node) (start : ResourceId) (reference : String)
    (passed : List String) (id : ResourceId) (first second : List String) :
    descend nodes start reference passed id (first ++ second) =
      (descend nodes start reference passed id first).bind fun reached =>
        descend nodes start reference (passed ++ first) reached second := by
  induction first generalizing passed id with
  | nil => simp [descend, Except.bind]
  | cons name rest ih =>
    simp only [List.cons_append, descend]
    split
    · rfl
    · split
      · rfl
      · rw [ih]; simp

namespace Query

def lookup (start : ResourceId) (reference : String) : Query ResourceId := do
  ofExcept (resolve (← nodes) start reference)

def lookupModule (start : ResourceId) (reference : String) : Query ResourceId := do
  ofExcept (resolveModule (← nodes) start reference)

end Query
end ResourceLibrary
