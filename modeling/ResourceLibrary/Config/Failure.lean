/-!
Failures of reading a file and of reading configuration, with their wording. Main statement: steps
that can fail succeed together if each does on what the one before gave.
-/

namespace ResourceLibrary

theorem bind_eq_ok_iff {ε α β : Type} {first : Except ε α} {next : α → Except ε β} {result : β} :
    first >>= next = .ok result ↔ ∃ value, first = .ok value ∧ next value = .ok result := by
  cases first with
  | error failure => simp [bind, Except.bind]
  | ok value => simp [bind, Except.bind]

inductive IoCause
  | notFound
  | isDirectory
  | notDirectory
  | nameTooLong
  | nulInName
  deriving DecidableEq, Repr

def IoCause.message : IoCause → String
  | .notFound => "No such file or directory (os error 2)"
  | .isDirectory => "Is a directory (os error 21)"
  | .notDirectory => "Not a directory (os error 20)"
  | .nameTooLong => "File name too long (os error 36)"
  | .nulInName => "file name contained an unexpected NUL byte"

namespace Config

inductive ValueFault
  | emptySignature
  | blankInSignature (signature : String)
  | propertyKey (key : String)
  | emptyIndex
  | notABoolean (text : String)
  deriving DecidableEq, Repr

def ValueFault.message : ValueFault → String
  | .emptySignature => "signature cannot be empty"
  | .blankInSignature signature => s!"signature '{signature}' contains whitespace"
  | .propertyKey key => s!"invalid property key '{key}'"
  | .emptyIndex => "index cannot be empty"
  | .notABoolean text => s!"expected a boolean, found '{text}'"

inductive Failure
  | notFound (path : String)
  | unreadable (cause : IoCause)
  | malformed (path : String)
  | invalidValue (field : String) (fault : ValueFault)
  | invalidPath (path : String)
  deriving DecidableEq, Repr

def Failure.message : Failure → String
  | .notFound path => s!"Configuration file not found: {path}"
  | .unreadable cause => s!"Failed to read configuration file: {cause.message}"
  | .malformed path => s!"Invalid TOML syntax in {path}"
  | .invalidValue field fault => s!"Invalid value for '{field}': {fault.message}"
  | .invalidPath path => s!"Invalid path: {path}"

end Config
end ResourceLibrary
