import ResourceLibrary.Config.Failure
import ResourceLibrary.Scope

/-!
Failures of library operations: each names its cause, and one function words them all.
-/

namespace ResourceLibrary

inductive PathFault
  | emptyReference
  | emptySegment
  | notOneSegment
  deriving DecidableEq, Repr

def PathFault.message : PathFault → String
  | .emptyReference => "empty reference"
  | .emptySegment => "empty path segment"
  | .notOneSegment => "resource names must be a single non-empty segment"

inductive CoordinateFault
  | missingScheme
  | badSequence
  | missingGroup
  | missingType
  | badVersion
  | unknownScheme (scheme : String)
  deriving DecidableEq, Repr

def CoordinateFault.message : CoordinateFault → String
  | .missingScheme => "missing scheme"
  | .badSequence => "invalid character sequence"
  | .missingGroup => "missing group"
  | .missingType => "missing type"
  | .badVersion => "illegal characters in the version"
  | .unknownScheme scheme => s!"unrecognized scheme '{scheme}'"

inductive MergeConflict
  | basedirs (present incoming : String)
  | versions (present incoming : String)
  | products
  | dependencies
  deriving DecidableEq, Repr

def MergeConflict.message : MergeConflict → String
  | .basedirs present incoming =>
    s!"different base directories (primary {present}, secondary {incoming})"
  | .versions present incoming => s!"different versions (primary {present}, secondary {incoming})"
  | .products => "a merged module cannot declare produced types"
  | .dependencies => "a merged module cannot declare dependencies"

inductive DeclarationFault
  | insidePlainResource
  | nestedInPlainResource
  | missingBasedir
  deriving DecidableEq, Repr

def DeclarationFault.message : DeclarationFault → String
  | .insidePlainResource => "only modules may contain resources"
  | .nestedInPlainResource => "a resource directive cannot declare nested resources"
  | .missingBasedir => "missing base directory declaration"

inductive ImportFault
  | fileMode
  | noLoader
  | notOnDisk
  deriving DecidableEq, Repr

def ImportFault.message : ImportFault → String
  | .fileMode => "file-mode imports are not supported"
  | .noLoader => "no import loader configured"
  | .notOnDisk => "only file imports can be loaded from disk"

inductive Failure
  | resourceNotFound (reference : String)
  | moduleNotFound (reference within : String)
  | notAModule (reference within : String)
  | unknownReference (resource reference : String) (scope : Scope) (category : Option Category)
  | invalidPath (path : String) (fault : PathFault)
  | invalidArtifact (urn : String) (fault : CoordinateFault)
  | anonymousResource (urn resource : String) (source : Failure)
  | structuralConflict (module : String) (conflict : MergeConflict)
  | duplicateKey (key module : String)
  | invalidDeclaration (resource : String) (fault : DeclarationFault)
  | typeNotFound (id resource : String)
  | unsupportedImport (value : String) (fault : ImportFault)
  | invalidImport (value : String)
  | circularDependency (cycle : List String)
  | exportOfRoot
  | malformedDirective
  | io (path : String) (cause : IoCause)
  | config (source : Config.Failure)
  deriving DecidableEq, Repr

namespace Failure

def message : Failure → String
  | .resourceNotFound reference => s!"Resource reference [{reference}] is undefined"
  | .moduleNotFound reference within =>
    s!"Cannot locate module [{reference}] within module [{within}]"
  | .notAModule reference within =>
    s!"A reference to module [{reference}] within the module [{within}] " ++
      "returned a reference to a non-module resource"
  | .unknownReference resource reference scope category =>
    s!"dependency include within [{resource}] referencing [{reference}] under the scope " ++
      s!"[{scope.word}]" ++ category.elim "" (fun c => s!" and category [{c.word}]") ++
      " is unknown"
  | .invalidPath path fault => s!"Invalid resource path [{path}]: {fault.message}"
  | .invalidArtifact urn fault => s!"Invalid artifact [{urn}]: {fault.message}"
  | .anonymousResource urn resource _ =>
    s!"An anonymous dependency include [{urn}] within the resource [{resource}] " ++
      "could not be resolved"
  | .structuralConflict module conflict => s!"Cannot merge module [{module}]: {conflict.message}"
  | .duplicateKey key module => s!"Duplicate key [{key}] within module [{module}]"
  | .invalidDeclaration resource fault => s!"Invalid resource [{resource}]: {fault.message}"
  | .typeNotFound id resource =>
    s!"Type name [{id}] not recognized with the scope of resource [{resource}]"
  | .unsupportedImport value fault => s!"Unsupported import [{value}]: {fault.message}"
  | .invalidImport value => s!"Import [{value}] did not resolve to a module directive"
  | .circularDependency cycle => "Circular dependency detected: " ++ " -> ".intercalate cycle
  | .exportOfRoot => "Unsupported operation: cannot export the library root"
  | .malformedDirective => "Failed to parse directive"
  | .io path cause => s!"I/O error at {path}: {cause.message}"
  | .config source => "Configuration error: " ++ source.message

def isNotFound : Failure → Bool
  | .resourceNotFound _ | .moduleNotFound .. | .unknownReference .. => true
  | _ => false

end Failure
end ResourceLibrary
