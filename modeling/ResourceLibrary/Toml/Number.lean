import ResourceLibrary.Toml.Lexeme

/-!
Numbers of TOML documents: integers that sixty-four bits hold, and floats. A float may be infinite
only by name or below zero, so a positive one is refused where it is nearer to infinity than to any
float.
-/

namespace ResourceLibrary.Toml

def isRun (isDigit : Char → Bool) : List Char → Bool
  | [] => false
  | [c] => isDigit c
  | c :: '_' :: rest => isDigit c && isRun isDigit rest
  | c :: rest => isDigit c && isRun isDigit rest

def magnitude (base : Nat) (text : List Char) : Nat :=
  (text.filterMap hexValue?).foldl (base * · + ·) 0

def withoutSign : List Char → List Char
  | '+' :: rest => rest
  | '-' :: rest => rest
  | text => text

def isWhole (text : List Char) : Bool :=
  text == ['0'] || (text.head? != some '0' && isRun Char.isDigit text)

/-- The integers go up to this number, which only its negative belongs to. -/
def integerBound : Nat := 0x8000000000000000

def isInteger (text : List Char) : Bool :=
  match text with
  | '0' :: 'x' :: run =>
    isRun (fun c => (hexValue? c).isSome) run && magnitude 16 run < integerBound
  | '0' :: 'o' :: run =>
    isRun (fun c => '0' ≤ c && c ≤ '7') run && magnitude 8 run < integerBound
  | '0' :: 'b' :: run =>
    isRun (fun c => c == '0' || c == '1') run && magnitude 2 run < integerBound
  | '-' :: whole => isWhole whole && magnitude 10 whole ≤ integerBound
  | text =>
    let whole := withoutSign text
    isWhole whole && magnitude 10 whole < integerBound

def isExponentMark (c : Char) : Bool := c == 'e' || c == 'E'

def isExponent : List Char → Bool
  | [] => true
  | c :: rest => isExponentMark c && isRun Char.isDigit (withoutSign rest)

def isFloatForm (text : List Char) : Bool :=
  let whole := text.takeWhile fun c => c != '.' && !isExponentMark c
  isWhole whole && match text.drop whole.length with
    | '.' :: rest =>
      isRun Char.isDigit (rest.takeWhile (!isExponentMark ·)) &&
        isExponent (rest.dropWhile (!isExponentMark ·))
    | rest => !rest.isEmpty && isExponent rest

/-- Least number that is rounded to infinity: half a step above the greatest float. -/
def floatBound : Nat := (Nat.pow 2 54 - 1) * Nat.pow 2 970

/-- Whether the number `digits · 10 ^ power` is rounded to infinity. With its first digit before the
last of 309 places it is too small for that, after it too great. -/
def overflows (digits : List Char) (power : Int) : Bool :=
  let size := digits.length + power
  if digits.isEmpty || size < 309 then false
  else if size > 309 then true
  else magnitude 10 digits * Nat.pow 10 power.toNat ≥ floatBound * Nat.pow 10 (-power).toNat

def isTooGreat (text : List Char) : Bool :=
  let mantissa := text.takeWhile (!isExponentMark ·)
  let places := ((mantissa.dropWhile (· != '.')).filter Char.isDigit).length
  let exponent := text.drop (mantissa.length + 1)
  let shift := magnitude 10 exponent
  let power : Int := if exponent.head? = some '-' then -shift else shift
  overflows ((mantissa.filter Char.isDigit).dropWhile (· == '0')) (power - places)

def isFloat (text : List Char) : Bool :=
  let bare := withoutSign text
  bare == "inf".toList || bare == "nan".toList ||
    (isFloatForm bare && (text.head? = some '-' || !isTooGreat bare))

end ResourceLibrary.Toml
