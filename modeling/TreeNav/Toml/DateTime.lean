import TreeNav.Toml.Number

/-!
Dates and times of TOML: a date, a time of day, or both with or without an offset from
universal time. The date has to exist in the calendar. Which moment is meant is left out.
-/
namespace TreeNav.Toml

/-- Exactly `count` digits that spell a number between two bounds. -/
def digitsWithin (count low high : Nat) (text : List Char) : Option (Nat × List Char) :=
  let digits := text.take count
  let n := numberOf 10 digits
  if digits.length = count && digits.all Char.isDigit && low ≤ n && n ≤ high then
    some (n, text.drop count)
  else none

/-- The number of days of a month. -/
def daysInMonth (year month : Nat) : Nat :=
  if month = 2 then
    if year % 4 = 0 && (year % 100 != 0 || year % 400 = 0) then 29 else 28
  else if month ∈ [4, 6, 9, 11] then 30
  else 31

/-- A date, as year, month and day. -/
def date (text : List Char) : Option (List Char) := do
  let (year, rest) ← digitsWithin 4 0 9999 text
  let rest ← expect? ['-'] rest
  let (month, rest) ← digitsWithin 2 1 12 rest
  let rest ← expect? ['-'] rest
  let (_, rest) ← digitsWithin 2 1 (daysInMonth year month) rest
  return rest

/-- The fraction of a second, if there is one. -/
def secondFraction : List Char → List Char
  | '.' :: d :: rest => if d.isDigit then rest.dropWhile Char.isDigit else '.' :: d :: rest
  | text => text

/-- A time of day. The last second of a day may be a leap second. -/
def timeOfDay (text : List Char) : Option (List Char) := do
  let (_, rest) ← digitsWithin 2 0 23 text
  let rest ← expect? [':'] rest
  let (_, rest) ← digitsWithin 2 0 59 rest
  let rest ← expect? [':'] rest
  let (_, rest) ← digitsWithin 2 0 60 rest
  return secondFraction rest

/-- The offset from universal time, if there is one. -/
def timeOffset : List Char → Option (List Char)
  | 'Z' :: rest => some rest
  | 'z' :: rest => some rest
  | c :: rest =>
    if c == '+' || c == '-' then do
      let (_, rest) ← digitsWithin 2 0 23 rest
      let rest ← expect? [':'] rest
      let (_, rest) ← digitsWithin 2 0 59 rest
      return rest
    else some (c :: rest)
  | [] => some []

/-- The time of day after a date, if there is one. A blank that no time of day follows
does not belong to the date. -/
def timeAfterDate (text : List Char) : Option (List Char) :=
  match text with
  | c :: rest =>
    if c == 'T' || c == 't' || c == ' ' then
      match timeOfDay rest with
      | some rest => timeOffset rest
      | none => if c == ' ' && !(rest.head?.any Char.isDigit) then some text else none
    else some text
  | [] => some text

/-- The text begins with digits and a given character after them. -/
def beginsDigits (count : Nat) (mark : Char) (text : List Char) : Bool :=
  (text.take count).length = count && (text.take count).all Char.isDigit &&
    (text.drop count).head? == some mark

/-- A date, a time or both, for a text that begins like one. -/
def dateTime (text : List Char) : Option (Value × List Char) := do
  let rest ←
    if beginsDigits 4 '-' text then (date text).bind timeAfterDate else timeOfDay text
  return (.dateTime (consumed text rest), rest)

/-- The text begins like a date or a time. No number begins so. -/
def looksLikeDateTime (text : List Char) : Bool :=
  beginsDigits 4 '-' text || beginsDigits 2 ':' text

end TreeNav.Toml
