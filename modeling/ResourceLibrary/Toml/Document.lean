import ResourceLibrary.Toml.Grammar

/-!
Documents: the table that the lines of a TOML document make together. An assignment belongs to the
table whose header was last opened.
-/

namespace ResourceLibrary.Toml

/-- A document while it is read: its entries, and the way to the table that was opened last. -/
structure Draft where
  sections : Sections
  way : List String

namespace Draft

def start : Draft := ⟨[], []⟩

def ends (way : List String) : List String × String := (way.dropLast, way.getLast?.getD "")

def read (draft : Draft) : Line → Option Draft
  | .void => some draft
  | .assignment way value => do
    let (inner, key) := ends way
    return { draft with sections := ← within (assign key value inner) draft.way draft.sections }
  | .table way => do
    let (outer, key) := ends way
    return ⟨← within (openTable key) outer draft.sections, way⟩
  | .row way => do
    let (outer, key) := ends way
    return ⟨← within (openRow key) outer draft.sections, way⟩

end Draft

def byteOrderMark : Char := '\ufeff'

def parse (text : String) : Option Value := do
  let content := match text.toList with
    | c :: rest => if c = byteOrderMark then rest else c :: rest
    | [] => []
  let lines ← lines? (content.length + 1) content
  let draft ← lines.foldlM Draft.read .start
  return .table (closeEntries draft.sections)

end ResourceLibrary.Toml
