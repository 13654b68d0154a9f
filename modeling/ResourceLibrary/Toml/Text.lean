import ResourceLibrary.Text.Split

/-!
Texts and keys as TOML writes them. A text takes the first of five forms that can hold it: basic,
literal, multi-line basic without escapes, multi-line literal, and basic with escapes. A key takes
the first of bare, basic, literal and basic with escapes.
-/

namespace ResourceLibrary.Toml

/-- Control characters that only an escape can stand for. A tab and a line feed are not among
them. -/
def isControl (c : Char) : Bool := (c.toNat < 0x20 && c != '\t' && c != '\n') || c.toNat == 0x7f

def longestRun (target : Char) (text : List Char) : Nat := (text.foldl step (0, 0)).2
where
  step (state : Nat × Nat) (c : Char) : Nat × Nat :=
    let run := if c = target then state.1 + 1 else 0
    (run, max state.2 run)

def hexDigit (n : Nat) : Char := "0123456789ABCDEF".toList.getD n '0'

def escapeNumber (c : Char) : List Char :=
  let n := c.toNat
  ['\\', 'u', hexDigit (n / 4096 % 16), hexDigit (n / 256 % 16), hexDigit (n / 16 % 16),
    hexDigit (n % 16)]

def escape (c : Char) : List Char :=
  if c = '\x08' then ['\\', 'b']
  else if c = '\t' then ['\\', 't']
  else if c = '\x0c' then ['\\', 'f']
  else if c = '\r' then ['\\', 'r']
  else if c = '\\' then ['\\', '\\']
  else if isControl c then escapeNumber c
  else [c]

def escapeLine (text : List Char) : List Char :=
  text.flatMap fun c =>
    if c = '"' then ['\\', '"'] else if c = '\n' then ['\\', 'n'] else escape c

/-- Content of a basic text on several lines: of quotes in a row each third one is escaped. -/
def escapeLines : Nat → List Char → List Char
  | _, [] => []
  | quotes, c :: rest =>
    if c = '"' then
      if quotes = 2 then '\\' :: '"' :: escapeLines 0 rest else '"' :: escapeLines (quotes + 1) rest
    else if c = '\n' then '\n' :: escapeLines 0 rest
    else escape c ++ escapeLines 0 rest

def enclosed (delimiter : List Char) (hasLines : Bool) (content : List Char) : List Char :=
  delimiter ++ (if hasLines then ['\n'] else []) ++ content ++ delimiter

def quote (text : List Char) : List Char :=
  let hasLines := text.contains '\n'
  let controlled := text.any isControl
  let tripleQuote := ['"', '"', '"']
  let tripleApostrophe := ['\x27', '\x27', '\x27']
  if !hasLines && !controlled && !text.contains '"' && !text.contains '\\' then
    '"' :: (escapeLine text ++ ['"'])
  else if !hasLines && !controlled && !text.contains '\x27' then
    '\x27' :: (text ++ ['\x27'])
  else if !controlled && !text.contains '\\' && longestRun '"' text ≤ 2 then
    enclosed tripleQuote hasLines (escapeLines 0 text)
  else if !controlled && longestRun '\x27' text ≤ 2 then
    enclosed tripleApostrophe hasLines text
  else if hasLines then enclosed tripleQuote hasLines (escapeLines 0 text)
  else '"' :: (escapeLine text ++ ['"'])

def isBareChar (c : Char) : Bool := c.isAlphanum || c == '_' || c == '-'

def quoteKey (key : List Char) : List Char :=
  let controlled := key.any fun c => isControl c || c == '\n'
  if !key.isEmpty && key.all isBareChar then key
  else if controlled || key.contains '"' || key.contains '\\' then
    if controlled || key.contains '\x27' then '"' :: (escapeLine key ++ ['"'])
    else '\x27' :: (key ++ ['\x27'])
  else '"' :: (escapeLine key ++ ['"'])

end ResourceLibrary.Toml
