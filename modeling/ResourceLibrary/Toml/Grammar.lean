import ResourceLibrary.Toml.Section
import ResourceLibrary.Toml.Token

/-!
The grammar of TOML documents: keys, values and the lines that a document is made of.
-/

namespace ResourceLibrary.Toml

/-- How deep values may nest, and how many parts a key may have. -/
def nestingLimit : Nat := 79

def simpleKey? (text : List Char) : Reading String :=
  match text with
  | '"' :: rest => (basic? rest).map fun (key, rest) => (String.ofList key, rest)
  | '\x27' :: rest => (literal? rest).map fun (key, rest) => (String.ofList key, rest)
  | _ =>
    let bare := text.takeWhile isBareChar
    if bare.isEmpty then none else some (String.ofList bare, text.dropWhile isBareChar)

def key? : Nat → List Char → Option (List String × List Char)
  | 0, _ => none
  | parts + 1, text => do
    let (name, rest) ← simpleKey? (skipBlanks text)
    match skipBlanks rest with
    | '.' :: rest =>
      let (names, rest) ← key? parts rest
      return (name :: names, rest)
    | rest => return ([name], rest)

def skipVoid : Nat → List Char → List Char
  | 0, text => text
  | lines + 1, text =>
    match skipBlanks text with
    | '#' :: rest => skipVoid lines (skipComment ('#' :: rest))
    | '\n' :: rest => skipVoid lines rest
    | '\r' :: '\n' :: rest => skipVoid lines rest
    | rest => rest

mutual

/-- A value. `steps` bounds the lexemes that it is made of, `depth` how deep it nests. -/
def value? : Nat → Nat → List Char → Reading Value
  | 0, _, _ => none
  | steps + 1, depth, text =>
    match text with
    | '[' :: rest =>
      match depth with
      | 0 => none
      | depth + 1 => (items? steps depth rest).map fun (items, rest) => (.list items, rest)
    | '\x7b' :: rest =>
      match depth with
      | 0 => none
      | depth + 1 =>
        match skipBlanks rest with
        | '\x7d' :: rest => some (.table [], rest)
        | rest => (entries? steps depth [] rest).map fun (entries, rest) =>
          (.table (closeEntries entries), rest)
    | _ =>
      if text.head? = some '"' || text.head? = some '\x27' then
        (text? text).map fun (content, rest) => (.text (String.ofList content), rest)
      else
        let (token, rest) := token text
        (tokenValue? token).map (·, rest)

def items? : Nat → Nat → List Char → Reading (List Value)
  | 0, _, _ => none
  | steps + 1, depth, text =>
    match skipVoid text.length text with
    | ']' :: rest => some ([], rest)
    | start =>
      match value? steps depth start with
      | none => none
      | some (item, rest) =>
        match skipVoid rest.length rest with
        | ']' :: rest => some ([item], rest)
        | ',' :: rest => (items? steps depth rest).map fun (items, rest) => (item :: items, rest)
        | _ => none

def entries? : Nat → Nat → Sections → List Char → Reading Sections
  | 0, _, _, _ => none
  | steps + 1, depth, sections, text =>
    match key? nestingLimit text with
    | some (way, '=' :: rest) =>
      match value? steps depth (skipBlanks rest) with
      | none => none
      | some (value, rest) =>
        match assign (way.getLast?.getD "") value way.dropLast sections with
        | none => none
        | some sections =>
          match skipBlanks rest with
          | '\x7d' :: rest => some (sections, rest)
          | ',' :: rest => entries? steps depth sections rest
          | _ => none
    | _ => none

end

inductive Line
  | void
  | assignment (way : List String) (value : Value)
  | table (way : List String)
  | row (way : List String)

def line? (text : List Char) : Option (Line × List Char) :=
  match text with
  | '[' :: '[' :: rest => do
    let (way, rest) ← key? nestingLimit rest
    let ']' :: ']' :: rest := rest | none
    return (.row way, rest)
  | '[' :: rest => do
    let (way, rest) ← key? nestingLimit rest
    let ']' :: rest := rest | none
    return (.table way, rest)
  | [] | '#' :: _ | '\n' :: _ | '\r' :: _ => some (.void, text)
  | _ => do
    let (way, rest) ← key? nestingLimit text
    let '=' :: rest := rest | none
    let (value, rest) ← value? (2 * rest.length + 2) nestingLimit (skipBlanks rest)
    return (.assignment way value, rest)

def lines? : Nat → List Char → Option (List Line)
  | 0, text => if text.isEmpty then some [] else none
  | count + 1, text =>
    if text.isEmpty then some []
    else do
      let (line, rest) ← line? (skipBlanks text)
      return line :: (← lines? count (← lineEnd? rest))

end ResourceLibrary.Toml
