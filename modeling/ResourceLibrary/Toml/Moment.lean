import ResourceLibrary.Toml.Lexeme

/-!
Moments of TOML documents: dates, times of day, and both together with or without an offset. In
normal form a capital letter parts date and time, the fraction of a second has at most nine digits
and no zero at its end, and an offset of nothing is positive.
-/

namespace ResourceLibrary.Toml

structure Date where
  year : Nat
  month : Nat
  day : Nat
  deriving DecidableEq, Repr

structure Time where
  hour : Nat
  minute : Nat
  second : Nat
  /-- Digits after the point. -/
  fraction : List Char
  deriving DecidableEq, Repr

inductive Offset
  | universal
  | shifted (isWest : Bool) (hours minutes : Nat)
  deriving DecidableEq, Repr

inductive Moment
  | date (date : Date)
  | time (time : Time)
  | dateTime (date : Date) (time : Time) (offset : Option Offset)
  deriving DecidableEq, Repr

def padded (width n : Nat) : String :=
  let digits := toString n
  String.ofList (List.replicate (width - digits.length) '0') ++ digits

def Date.text (date : Date) : String :=
  padded 4 date.year ++ "-" ++ padded 2 date.month ++ "-" ++ padded 2 date.day

def Time.text (time : Time) : String :=
  padded 2 time.hour ++ ":" ++ padded 2 time.minute ++ ":" ++ padded 2 time.second ++
    if time.fraction.isEmpty then "" else "." ++ String.ofList time.fraction

def Offset.text : Offset → String
  | .universal => "Z"
  | .shifted isWest hours minutes =>
    (if isWest && (hours != 0 || minutes != 0) then "-" else "+") ++ padded 2 hours ++ ":" ++
      padded 2 minutes

def Moment.text : Moment → String
  | .date day => day.text
  | .time clock => clock.text
  | .dateTime day clock offset => day.text ++ "T" ++ clock.text ++ offset.elim "" Offset.text

def pair? : List Char → Reading Nat
  | a :: b :: rest =>
    if a.isDigit && b.isDigit then
      some (10 * (a.toNat - '0'.toNat) + (b.toNat - '0'.toNat), rest)
    else none
  | _ => none

def daysIn (year month : Nat) : Nat :=
  if month = 2 then
    if year % 4 = 0 && (year % 100 ≠ 0 || year % 400 = 0) then 29 else 28
  else if month = 4 || month = 6 || month = 9 || month = 11 then 30 else 31

def date? (text : List Char) : Option (Date × List Char) := do
  let (century, rest) ← pair? text
  let (year, rest) ← pair? rest
  let '-' :: rest := rest | none
  let (month, rest) ← pair? rest
  let '-' :: rest := rest | none
  let (day, rest) ← pair? rest
  let year := 100 * century + year
  if 1 ≤ month && month ≤ 12 && 1 ≤ day && day ≤ daysIn year month then
    some (⟨year, month, day⟩, rest)
  else none

def fractionDigits (digits : List Char) : List Char :=
  ((digits.take 9).reverse.dropWhile (· == '0')).reverse

def time? (text : List Char) : Option (Time × List Char) := do
  let (hour, rest) ← pair? text
  let ':' :: rest := rest | none
  let (minute, rest) ← pair? rest
  let ':' :: rest := rest | none
  let (second, rest) ← pair? rest
  if hour > 23 || minute > 59 || second > 60 then none
  else match rest with
    | '.' :: later =>
      let digits := later.takeWhile Char.isDigit
      if digits.isEmpty then none
      else some (⟨hour, minute, second, fractionDigits digits⟩, later.dropWhile Char.isDigit)
    | _ => some (⟨hour, minute, second, []⟩, rest)

def offset? : List Char → Option (Option Offset)
  | [] => some none
  | ['Z'] | ['z'] => some (some .universal)
  | sign :: rest => do
    let (hours, rest) ← pair? rest
    let ':' :: rest := rest | none
    let (minutes, []) ← pair? rest | none
    if (sign == '+' || sign == '-') && hours ≤ 23 && minutes ≤ 59 then
      some (some (.shifted (sign == '-') hours minutes))
    else none

def moment? (text : List Char) : Option Moment :=
  match date? text with
  | some (date, []) => some (.date date)
  | some (date, c :: rest) =>
    if c == 'T' || c == 't' || c == ' ' then do
      let (time, rest) ← time? rest
      some (.dateTime date time (← offset? rest))
    else none
  | none =>
    match time? text with
    | some (time, []) => some (.time time)
    | _ => none

end ResourceLibrary.Toml
