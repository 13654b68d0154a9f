import ResourceLibrary.Table
import ResourceLibrary.Text.Blank

/-!
Properties: text values by key, with readings of a value as a flag and as a number.
-/

namespace ResourceLibrary

abbrev Properties := Table String

def Properties.maxNumber : Nat := UInt64.size - 1

/-- Number written in decimal digits after an optional plus sign, up to `limit`. -/
def readNumber? (limit : Nat) (text : List Char) : Option Nat :=
  let digits := match text with
    | '+' :: rest => rest
    | cs => cs
  if digits.isEmpty || !digits.all Char.isDigit then none
  else
    let number := digits.foldl (fun n c => 10 * n + (c.toNat - '0'.toNat)) 0
    if number ≤ limit then some number else none

namespace Properties

def flag? (properties : Properties) (key : String) : Option Bool :=
  (properties.get? key).map fun value => (Text.trim value).toLower == "true"

def number (properties : Properties) (key : String) (default : Nat) : Nat :=
  let read := fun value => readNumber? maxNumber (Text.trim value).toList
  ((properties.get? key).bind read).getD default

end Properties
end ResourceLibrary
