import ResourceLibrary.Toml.Text

/-!
Lexemes of TOML documents: blanks, comments, line ends, and texts in their four forms. A reader
gives what it read and the rest.
-/

namespace ResourceLibrary.Toml

abbrev Reading (α : Type) := Option (α × List Char)

def isBlank (c : Char) : Bool := c == ' ' || c == '\t'

def skipBlanks (text : List Char) : List Char := text.dropWhile isBlank

def skipComment : List Char → List Char
  | '#' :: rest => rest.dropWhile fun c => !isControl c && c != '\n'
  | text => text

def lineEnd? (text : List Char) : Option (List Char) :=
  match skipComment (skipBlanks text) with
  | [] => some []
  | '\n' :: rest => some rest
  | '\r' :: '\n' :: rest => some rest
  | _ => none

def hexValue? (c : Char) : Option Nat :=
  if c.isDigit then some (c.toNat - '0'.toNat)
  else if 'a' ≤ c && c ≤ 'f' then some (c.toNat - 'a'.toNat + 10)
  else if 'A' ≤ c && c ≤ 'F' then some (c.toNat - 'A'.toNat + 10)
  else none

def hexChar? (digits : List Char) : Option Char := do
  let number := (← digits.mapM hexValue?).foldl (16 * · + ·) 0
  if number < 0xd800 || (0xe000 ≤ number && number ≤ 0x10ffff) then some (.ofNat number) else none

def escaped? : List Char → Reading Char
  | 'b' :: rest => some ('\x08', rest)
  | 't' :: rest => some ('\t', rest)
  | 'n' :: rest => some ('\n', rest)
  | 'f' :: rest => some ('\x0c', rest)
  | 'r' :: rest => some ('\r', rest)
  | '"' :: rest => some ('"', rest)
  | '\\' :: rest => some ('\\', rest)
  | 'u' :: a :: b :: c :: d :: rest => (hexChar? [a, b, c, d]).map (·, rest)
  | 'U' :: a :: b :: c :: d :: e :: f :: g :: h :: rest =>
    (hexChar? [a, b, c, d, e, f, g, h]).map (·, rest)
  | _ => none

theorem length_escaped? {text rest : List Char} {c : Char} (read : escaped? text = some (c, rest)) :
    rest.length < text.length := by
  unfold escaped? at read
  split at read <;> grind [Option.map_eq_some_iff, List.length_cons]

def withHead (c : Char) (reading : Reading (List Char)) : Reading (List Char) :=
  reading.map fun (content, rest) => (c :: content, rest)

def basic? : List Char → Reading (List Char)
  | [] => none
  | '"' :: rest => some ([], rest)
  | '\\' :: text =>
    match _read : escaped? text with
    | some (c, rest) => withHead c (basic? rest)
    | none => none
  | c :: rest => if isControl c || c = '\n' then none else withHead c (basic? rest)
termination_by text => text.length
decreasing_by
  · have := length_escaped? _read
    simp only [List.length_cons]
    omega
  · simp

def literal? : List Char → Reading (List Char)
  | [] => none
  | c :: rest =>
    if c = '\x27' then some ([], rest)
    else if isControl c || c = '\n' then none
    else withHead c (literal? rest)

def lineFeed? : List Char → Option (List Char)
  | '\n' :: rest => some rest
  | '\r' :: '\n' :: rest => some rest
  | _ => none

def skipLines : List Char → List Char
  | '\r' :: '\n' :: rest => skipLines rest
  | c :: rest => if isBlank c || c = '\n' then skipLines rest else c :: rest
  | [] => []

/-- The rest after a line end that a backslash hides, with the white space around it. -/
def hiddenLine? (text : List Char) : Option (List Char) :=
  (lineFeed? (skipBlanks text)).map skipLines

theorem length_skipLines (text : List Char) : (skipLines text).length ≤ text.length := by
  fun_induction skipLines text <;> simp_all <;> omega

theorem length_hiddenLine? {text rest : List Char} (hidden : hiddenLine? text = some rest) :
    rest.length < text.length := by
  obtain ⟨middle, found, rfl⟩ := Option.map_eq_some_iff.mp hidden
  have lines := length_skipLines middle
  have blanks : (skipBlanks text).length ≤ text.length := (List.dropWhile_suffix _).length_le
  have feed : middle.length < (skipBlanks text).length := by
    revert found
    generalize skipBlanks text = start
    unfold lineFeed?
    split <;> grind
  omega

/-- Content of a basic text of several lines up to its three closing quotes. Two more quotes may
stand before these. -/
def multiBasic? : List Char → Reading (List Char)
  | [] => none
  | '"' :: '"' :: '"' :: '"' :: '"' :: rest => some (['"', '"'], rest)
  | '"' :: '"' :: '"' :: '"' :: rest => some (['"'], rest)
  | '"' :: '"' :: '"' :: rest => some ([], rest)
  | '\r' :: '\n' :: rest => withHead '\n' (multiBasic? rest)
  | '\\' :: text =>
    match _line : hiddenLine? text with
    | some rest => multiBasic? rest
    | none =>
      match _read : escaped? text with
      | some (c, rest) => withHead c (multiBasic? rest)
      | none => none
  | c :: rest => if isControl c then none else withHead c (multiBasic? rest)
termination_by text => text.length
decreasing_by
  · simp only [List.length_cons]
    omega
  · have := length_hiddenLine? _line
    simp only [List.length_cons]
    omega
  · have := length_escaped? _read
    simp only [List.length_cons]
    omega
  · simp

def multiLiteral? : List Char → Reading (List Char)
  | [] => none
  | '\x27' :: '\x27' :: '\x27' :: '\x27' :: '\x27' :: rest => some (['\x27', '\x27'], rest)
  | '\x27' :: '\x27' :: '\x27' :: '\x27' :: rest => some (['\x27'], rest)
  | '\x27' :: '\x27' :: '\x27' :: rest => some ([], rest)
  | '\r' :: '\n' :: rest => withHead '\n' (multiLiteral? rest)
  | c :: rest => if isControl c then none else withHead c (multiLiteral? rest)

def text? : List Char → Reading (List Char)
  | '"' :: '"' :: '"' :: rest => multiBasic? ((lineFeed? rest).getD rest)
  | '"' :: rest => basic? rest
  | '\x27' :: '\x27' :: '\x27' :: rest => multiLiteral? ((lineFeed? rest).getD rest)
  | '\x27' :: rest => literal? rest
  | _ => none

end ResourceLibrary.Toml
