import ResourceLibrary.Failure
import ResourceLibrary.Text.Split

/-!
Artifact coordinates, written as a scheme, a type and a path with an optional version. Reading
drops an embedded entry, which runs from the first exclamation mark to the version.
-/

namespace ResourceLibrary

structure Coordinate where
  scheme : String
  kind : String
  group : String
  name : String
  version : Option String
  deriving DecidableEq, Repr

namespace Coordinate

/-- Coordinate of the given parts; an empty version is none. -/
def ofParts (scheme kind group name : String) (version : Option String) : Coordinate :=
  ⟨scheme, kind, group, name, version.filter (· != "")⟩

def schemes : List String := ["artifact", "link", "local"]

def isScheme (text : String) : Bool := schemes.contains text

def barred : List Char :=
  ['/', '%', '\\', '*', '!', '(', '@', ')', '+', '\x27', '\x7b', '\x7d', '[', ']', '?', ',', '#',
    '=']

/-- Text without its embedded entry: what stands from the first exclamation mark up to the first
hash mark after it, or to the end where none is later. -/
def withoutEntry (cs : List Char) : List Char :=
  match Text.cut? '!' cs with
  | none => cs
  | some (before, after) =>
    if before.contains '#' then before
    else match Text.cut? '#' after with
      | some (_, version) => before ++ '#' :: version
      | none => before

def readParts (cs : List Char) : Except CoordinateFault Coordinate := do
  let some (scheme, rest) := Text.cut? ':' cs | .error .missingScheme
  if scheme.isEmpty then .error .missingScheme
  let (specific, version) := match Text.cut? '#' rest with
    | some (specific, version) => (specific, some version)
    | none => (rest, none)
  if Text.holdsPair '/' '/' specific || Text.holdsPair ':' '/' specific ||
      specific.getLast? = some '/' then
    .error .badSequence
  let some (head, name) := Text.cutLast? '/' specific | .error .missingGroup
  let some (kind, group) := Text.cut? ':' head | .error .missingType
  if (version.getD []).any barred.contains then .error .badVersion
  .ok (ofParts (String.ofList scheme) (String.ofList kind) (String.ofList group)
    (String.ofList name) (version.map String.ofList))

def parseAny (urn : String) : Except Failure Coordinate :=
  let text := withoutEntry urn.toList
  match readParts text with
  | .ok coordinate => .ok coordinate
  | .error fault => .error (.invalidArtifact (String.ofList text) fault)

def parse (urn : String) : Except Failure Coordinate :=
  match parseAny urn with
  | .error failure => .error failure
  | .ok coordinate =>
    if isScheme coordinate.scheme then .ok coordinate
    else .error (.invalidArtifact urn (.unknownScheme coordinate.scheme))

def path (coordinate : Coordinate) : String :=
  if coordinate.group = "" then coordinate.name else coordinate.group ++ "/" ++ coordinate.name

def text (coordinate : Coordinate) : String :=
  coordinate.scheme ++ ":" ++ coordinate.kind ++ ":" ++ coordinate.path ++
    coordinate.version.elim "" ("#" ++ ·)

def compareVersions : Option String → Option String → Ordering
  | none, none => .eq
  | none, some _ => .lt
  | some _, none => .gt
  | some a, some b => Ord.compare a b

def compare (a b : Coordinate) : Ordering :=
  (Ord.compare a.scheme b.scheme).then <| (Ord.compare a.kind b.kind).then <|
    (Ord.compare a.group b.group).then <| (Ord.compare a.name b.name).then <|
      compareVersions a.version b.version

theorem isScheme_of_parse {urn : String} {coordinate : Coordinate}
    (read : parse urn = .ok coordinate) : isScheme coordinate.scheme = true := by
  unfold parse at read
  split at read
  · simp at read
  · split at read
    · next known => cases read; exact known
    · simp at read

theorem withoutEntry_of_not_mem {cs : List Char} (absent : '!' ∉ cs) : withoutEntry cs = cs := by
  simp [withoutEntry, Text.cut?_eq_none_iff.mpr absent]

end Coordinate
end ResourceLibrary
