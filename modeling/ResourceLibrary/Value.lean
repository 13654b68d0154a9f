import ResourceLibrary.Properties.Basic

/-!
Data trees, the common form of stored data whatever format it is written in, and readings of
their nodes. A record is read from a table that holds none but its fields, or from a list that
gives its fields by position. The formats differ in what a list may hold beyond the fields of its
record, and in what stands for none.
-/

namespace ResourceLibrary

/-- A data tree. A number is kept as it is written, a moment in the normal form of its date and
time. -/
inductive Value
  | null
  | bool (flag : Bool)
  | number (text : String)
  | moment (text : String)
  | text (content : String)
  | list (items : List Value)
  | table (entries : List (String × Value))
  deriving Inhabited

abbrev Fields := List (String × Value)

inductive StorageFormat
  | json
  | toml
  deriving DecidableEq, Repr

namespace StorageFormat

/-- Whether a record given as a list may be followed by further items, which count for nothing. -/
def allowsSurplus : StorageFormat → Bool
  | .json => false
  | .toml => true

def isNone : StorageFormat → Value → Bool
  | .json, .null => true
  | .toml, .list [] => true
  | .toml, .table [] => true
  | _, _ => false

end StorageFormat

namespace Value

def text? : Value → Option String
  | .text content => some content
  | _ => none

def bool? : Value → Option Bool
  | .bool flag => some flag
  | _ => none

def orNull? {α : Type} (read : Value → Option α) : Value → Option (Option α)
  | .null => some none
  | value => (read value).map some

def list? {α : Type} (read : Value → Option α) : Value → Option (List α)
  | .list items => items.mapM read
  | _ => none

def texts? : List (String × Value) → Option (List (String × String))
  | [] => some []
  | (key, .text content) :: rest => (texts? rest).map ((key, content) :: ·)
  | _ => none

def momentKey : String := "$__toml_private_datetime"

/-- A table of texts. A moment is one with a single entry. -/
def properties? : Value → Option Properties
  | .table entries => (texts? entries).map Table.ofList
  | .moment normal => some (.ofList [(momentKey, normal)])
  | _ => none

/-- A word of a vocabulary: by itself, or as the one key of a table, with none for its value. -/
def word? {α : Type} (format : StorageFormat) (ofWord? : String → Option α) : Value → Option α
  | .text word => ofWord? word
  | .table [(word, value)] => if format.isNone value then ofWord? word else none
  | _ => none

/-- The fields that a value gives for a record: a table must hold none but fields of the record, a
list gives them in order, at least the first `least` of them. -/
def record? (format : StorageFormat) (names : List String) (least : Nat) : Value → Option Fields
  | .table entries => if entries.all fun entry => names.contains entry.1 then some entries else none
  | .list items =>
    if least ≤ items.length ∧ (format.allowsSurplus ∨ items.length ≤ names.length) then
      some (names.zip items)
    else none
  | _ => none

def ofProperties (properties : Properties) : Value :=
  .table (properties.entries.map fun (key, content) => (key, .text content))

end Value

namespace Fields

def required {α : Type} (fields : Fields) (name : String) (read : Value → Option α) : Option α :=
  (fields.lookup name).bind read

def withDefault {α : Type} (fields : Fields) (name : String) (default : α)
    (read : Value → Option α) : Option α :=
  match fields.lookup name with
  | none => some default
  | some value => read value

def optional {α : Type} (fields : Fields) (name : String) (read : Value → Option α) :
    Option (Option α) :=
  fields.withDefault name none (Value.orNull? read)

def ofOption (name : String) (content : Option String) : Fields :=
  match content with
  | some content => [(name, .text content)]
  | none => []

def ofList {α : Type} (name : String) (write : α → Value) (items : List α) : Fields :=
  if items.isEmpty then [] else [(name, .list (items.map write))]

def ofProperties (name : String) (properties : Properties) : Fields :=
  if properties.isEmpty then [] else [(name, Value.ofProperties properties)]

def ofFlag (name : String) (standard flag : Bool) : Fields :=
  if flag = standard then [] else [(name, .bool flag)]

end Fields
end ResourceLibrary
