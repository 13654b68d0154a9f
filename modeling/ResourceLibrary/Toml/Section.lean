import ResourceLibrary.Value

/-!
Sections: tables of a TOML document while it is read. A table is opened once by its header; it may
be made before by the way to another table, or by dotted keys, and what each of these made may be
extended only in its own manner.
-/

namespace ResourceLibrary.Toml

inductive Origin
  | header
  | passage
  | dotted
  deriving DecidableEq

inductive Section
  | value (value : Value)
  | table (origin : Origin) (entries : List (String × Section))
  | tables (rows : List (List (String × Section)))

abbrev Sections := List (String × Section)

def Sections.set (sections : Sections) (key : String) (entry : Section) : Sections :=
  if sections.any (·.1 == key) then
    sections.map fun present => if present.1 == key then (key, entry) else present
  else sections ++ [(key, entry)]

/-- Assigns a value below a table. The tables on the way must come from dotted keys; only the last
one is asked whether it was opened by nothing else. -/
def assign (key : String) (value : Value) : List String → Sections → Option Sections
  | [], sections =>
    match sections.lookup key with
    | none => some (sections ++ [(key, .value value)])
    | some _ => none
  | name :: rest, sections => do
    match sections.lookup name with
    | none => return sections.set name (.table .dotted (← assign key value rest []))
    | some (.table origin inner) =>
      if origin = .header || (rest.isEmpty && origin ≠ .dotted) then none
      else return sections.set name (.table origin (← assign key value rest inner))
    | some (.tables (row :: rows)) =>
      if rest.isEmpty then none
      else return sections.set name (.tables ((← assign key value rest row) :: rows))
    | some _ => none

def within (change : Sections → Option Sections) : List String → Sections → Option Sections
  | [], sections => change sections
  | name :: rest, sections => do
    match sections.lookup name with
    | none => return sections.set name (.table .passage (← within change rest []))
    | some (.table origin inner) =>
      return sections.set name (.table origin (← within change rest inner))
    | some (.tables (row :: rows)) =>
      return sections.set name (.tables ((← within change rest row) :: rows))
    | some _ => none

def openTable (key : String) (sections : Sections) : Option Sections :=
  match sections.lookup key with
  | none => some (sections ++ [(key, .table .header [])])
  | some (.table .passage inner) => some (sections.set key (.table .header inner))
  | some _ => none

def openRow (key : String) (sections : Sections) : Option Sections :=
  match sections.lookup key with
  | none => some (sections ++ [(key, .tables [[]])])
  | some (.tables rows) => some (sections.set key (.tables ([] :: rows)))
  | some _ => none

mutual

def Section.close : Section → Value
  | .value value => value
  | .table _ entries => .table (closeEntries entries)
  | .tables rows => .list (closeRows rows).reverse

def closeEntries : List (String × Section) → List (String × Value)
  | [] => []
  | (key, entry) :: rest => (key, entry.close) :: closeEntries rest

def closeRows : List (List (String × Section)) → List Value
  | [] => []
  | row :: rest => .table (closeEntries row) :: closeRows rest

end

end ResourceLibrary.Toml
