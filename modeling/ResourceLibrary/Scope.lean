/-!
The closed vocabularies of the domain: dependency scopes, classpath categories and resource
classifiers. A word is read exactly in stored data and in any ASCII case as an argument. Main
statement: every word reads back.
-/

namespace ResourceLibrary

/-- Dependency tier. Aggregation at a scope takes in every lower one. -/
inductive Scope
  | build
  | runtime
  | test
  deriving DecidableEq, Repr

/-- Visibility of a runtime dependency. Only the classpath tiers are ordered. -/
inductive Category
  | undefined
  | systemTier
  | publicTier
  | protectedTier
  | privateTier
  | w32
  | nix
  deriving DecidableEq, Repr

/-- How a resource came to be part of the library: built here, declared elsewhere, or synthesized
from an artifact coordinate. -/
inductive Classifier
  | project
  | external
  | anonymous
  deriving DecidableEq, Repr

structure UnknownWord where
  vocabulary : String
  word : String

def UnknownWord.message (unknown : UnknownWord) : String :=
  s!"unknown {unknown.vocabulary} '{unknown.word}'"

namespace Scope

def all : List Scope := [.build, .runtime, .test]

def word : Scope → String
  | .build => "build"
  | .runtime => "runtime"
  | .test => "test"

def rank : Scope → Nat
  | .build => 0
  | .runtime => 1
  | .test => 2

def standard : Scope := .runtime

instance : LE Scope := ⟨fun a b => a.rank ≤ b.rank⟩
instance (a b : Scope) : Decidable (a ≤ b) := inferInstanceAs (Decidable (a.rank ≤ b.rank))

def compare (a b : Scope) : Ordering := Ord.compare a.rank b.rank

def ofWord? (text : String) : Option Scope := all.find? (·.word == text)

def read (text : String) : Except UnknownWord Scope :=
  match ofWord? text.toLower with
  | some scope => .ok scope
  | none => .error ⟨"scope", text⟩

theorem ofWord?_word (scope : Scope) : ofWord? scope.word = some scope := by
  cases scope <;> decide

/-- The scopes whose declarations an aggregation at `scope` gathers, BUILD only if asked for. -/
def tiers (scope : Scope) (withBuild : Bool) : List Scope :=
  all.filter fun tier => tier ≤ scope && (withBuild || tier != .build)

end Scope

namespace Category

def all : List Category :=
  [.undefined, .systemTier, .publicTier, .protectedTier, .privateTier, .w32, .nix]

def classpath : List Category := [.systemTier, .publicTier, .protectedTier, .privateTier]

def word : Category → String
  | .undefined => "undefined"
  | .systemTier => "system"
  | .publicTier => "public"
  | .protectedTier => "protected"
  | .privateTier => "private"
  | .w32 => "w32"
  | .nix => "nix"

def standard : Category := .undefined

def tier? (category : Category) : Option Nat := classpath.idxOf? category

def lowerTiers (category : Category) : List Category :=
  match category.tier? with
  | some tier => classpath.take tier
  | none => []

def compare? (a b : Category) : Option Ordering :=
  if a = b then some .eq
  else match a.tier?, b.tier? with
    | some i, some j => some (Ord.compare i j)
    | _, _ => none

def ofWord? (text : String) : Option Category := all.find? (·.word == text)

def read (text : String) : Except UnknownWord Category :=
  match ofWord? text.toLower with
  | some category => .ok category
  | none => .error ⟨"category", text⟩

theorem ofWord?_word (category : Category) : ofWord? category.word = some category := by
  cases category <;> decide

end Category

namespace Classifier

def all : List Classifier := [.project, .external, .anonymous]

def word : Classifier → String
  | .project => "local"
  | .external => "external"
  | .anonymous => "anonymous"

def standard : Classifier := .external

def ofWord? (text : String) : Option Classifier := all.find? (·.word == text)

def read (text : String) : Except UnknownWord Classifier :=
  match ofWord? text.toLower with
  | some classifier => .ok classifier
  | none => .error ⟨"classifier", text⟩

theorem ofWord?_word (classifier : Classifier) : ofWord? classifier.word = some classifier := by
  cases classifier <;> decide

end Classifier
end ResourceLibrary
