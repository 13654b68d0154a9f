import ResourceLibrary.Toml.Moment
import ResourceLibrary.Toml.Number
import ResourceLibrary.Value

/-!
Bare tokens of TOML documents, which stand for flags, numbers and moments.
-/

namespace ResourceLibrary.Toml

def isTokenChar (c : Char) : Bool :=
  c.isAlphanum || c == '_' || c == '+' || c == '-' || c == '.' || c == ':'

def isDate (text : List Char) : Bool :=
  match date? text with
  | some (_, []) => true
  | _ => false

def token (text : List Char) : List Char × List Char :=
  let first := text.takeWhile isTokenChar
  let rest := text.dropWhile isTokenChar
  match rest with
  | ' ' :: later =>
    if isDate first && (time? later).isSome then
      (first ++ ' ' :: later.takeWhile isTokenChar, later.dropWhile isTokenChar)
    else (first, rest)
  | _ => (first, rest)

def tokenValue? (token : List Char) : Option Value :=
  if token = "true".toList then some (.bool true)
  else if token = "false".toList then some (.bool false)
  else if isInteger token || isFloat token then some (.number (String.ofList token))
  else (moment? token).map fun moment => .moment moment.text

end ResourceLibrary.Toml
