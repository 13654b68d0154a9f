import ResourceLibrary.Toml.Text
import ResourceLibrary.Value

/-!
Tables rendered as TOML documents. The plain values of a table stand first, one a line; then its
sub-tables and lists of tables follow in order, each under a header with the whole way to it, and a
blank line parts what has a header from what stands before it.
-/

namespace ResourceLibrary.Toml

def isTable : Value → Bool
  | .table _ => true
  | _ => false

def hasHeader : Value → Bool
  | .table _ => true
  | .list items => !items.isEmpty && items.all isTable
  | _ => false

def keyText (key : String) : String := String.ofList (quoteKey key.toList)

mutual

def inline : Value → String
  | .null => ""
  | .bool flag => if flag then "true" else "false"
  | .number text => text
  | .moment text => text
  | .text content => String.ofList (quote content.toList)
  | .list items => "[" ++ ", ".intercalate (inlineItems items) ++ "]"
  | .table entries => "\x7b " ++ ", ".intercalate (inlineEntries entries) ++ " \x7d"

def inlineItems : List Value → List String
  | [] => []
  | item :: rest => inline item :: inlineItems rest

def inlineEntries : List (String × Value) → List String
  | [] => []
  | (key, value) :: rest => (keyText key ++ " = " ++ inline value) :: inlineEntries rest

end

def plainLines (entries : List (String × Value)) : List String :=
  entries.filterMap fun (key, value) =>
    if hasHeader value then none else some (keyText key ++ " = " ++ inline value ++ "\n")

def wayText (way : List String) : String := ".".intercalate (way.map keyText)

/-- The header and the plain values of a table. A table without plain values needs no header unless
it is one of a list. -/
def block (way : List String) (isElement : Bool) (entries : List (String × Value)) : List String :=
  let lines := plainLines entries
  let header :=
    if isElement then ["[[" ++ wayText way ++ "]]\n"]
    else if lines.isEmpty || way.isEmpty then [] else ["[" ++ wayText way ++ "]\n"]
  let content := header ++ lines
  if content.isEmpty then [] else [String.join content]

mutual

def entryBlocks (way : List String) : List (String × Value) → List String
  | [] => []
  | (key, value) :: rest => valueBlocks (way ++ [key]) value ++ entryBlocks way rest

def valueBlocks (way : List String) : Value → List String
  | .table entries => block way false entries ++ entryBlocks way entries
  | .list items => if items.all isTable then elementBlocks way items else []
  | _ => []

def elementBlocks (way : List String) : List Value → List String
  | [] => []
  | .table entries :: rest =>
    block way true entries ++ entryBlocks way entries ++ elementBlocks way rest
  | _ :: rest => elementBlocks way rest

end

def render : Value → String
  | .table entries => "\n".intercalate (block [] false entries ++ entryBlocks [] entries)
  | _ => ""

end ResourceLibrary.Toml
