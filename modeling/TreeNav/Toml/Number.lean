import TreeNav.Toml.Scan
import TreeNav.Toml.Value

/-!
Numbers of TOML: integers in four bases, which have to fit 64 bits with a sign, and
floats, which have to be finite unless they are negative or spelled as infinite. Which
number a float is once it is rounded is left out.
-/
namespace TreeNav.Toml

/-- The digits that follow a first one. An underscore may stand between two digits and
nowhere else. -/
def moreDigits (isDigit : Char → Bool) : Scan (List Char)
  | [] => some ([], [])
  | c :: rest =>
    if isDigit c then (moreDigits isDigit rest).map (push c)
    else if c == '_' then
      match rest with
      | [] => none
      | d :: _ => if isDigit d then moreDigits isDigit rest else none
    else some ([], c :: rest)

/-- One or more digits. -/
def digits (isDigit : Char → Bool) : Scan (List Char)
  | [] => none
  | c :: rest => if isDigit c then (moreDigits isDigit rest).map (push c) else none

/-- A decimal number without leading zeros. -/
def wholePart : Scan (List Char)
  | '0' :: rest => some (['0'], rest)
  | text => digits Char.isDigit text

/-- An integer of 64 bits with a sign. -/
def integer64? (n : Int) : Option Value :=
  if Int64.minValue.toInt ≤ n && n ≤ Int64.maxValue.toInt then some (.integer n) else none

/-- An integer in a base that is marked by its first two characters. -/
def inBase (base : Nat) (isDigit : Char → Bool) (text : List Char) :
    Option (Value × List Char) := do
  let (digits, rest) ← digits isDigit text
  return (← integer64? (numberOf base digits), rest)

/-- The digits after a decimal point, if there is one. -/
def fraction : Scan (Option (List Char))
  | '.' :: rest => (digits Char.isDigit rest).map fun (digits, rest) => (some digits, rest)
  | text => some (none, text)

/-- The power of ten after an `e`, if there is one. -/
def exponent : Scan (Option Int)
  | c :: rest =>
    if c == 'e' || c == 'E' then
      let (negative, rest) :=
        match rest with
        | '-' :: rest => (true, rest)
        | '+' :: rest => (false, rest)
        | rest => (false, rest)
      (digits Char.isDigit rest).map fun (digits, rest) =>
        let n : Int := numberOf 10 digits
        (some (if negative then -n else n), rest)
    else some (none, c :: rest)
  | [] => some (none, [])

/-- Least whole number that a double rounds to infinity. -/
def infinite : Nat := Nat.pow 2 1024 - Nat.pow 2 970

/-- The digits, scaled by a power of ten, are too large for a double. Powers far outside
the range are decided by the number of digits alone. -/
def overflows (digits : List Char) (power : Int) : Bool :=
  let n := numberOf 10 digits
  if n = 0 then false
  else if 400 < power then true
  else if 0 ≤ power then infinite ≤ n * Nat.pow 10 power.toNat
  else if (digits.length : Int) ≤ -power then false
  else infinite * Nat.pow 10 (-power).toNat ≤ n

/-- The characters that were read to get from one text to another. -/
def consumed (before after : List Char) : String :=
  String.ofList (before.take (before.length - after.length))

/-- A decimal integer or a float. -/
def decimal (text : List Char) : Option (Value × List Char) := do
  let (negative, unsigned) :=
    match text with
    | '-' :: rest => (true, rest)
    | '+' :: rest => (false, rest)
    | rest => (false, rest)
  match expect? ['i', 'n', 'f'] unsigned, expect? ['n', 'a', 'n'] unsigned with
  | some rest, _ => return (.float (consumed text rest), rest)
  | _, some rest => return (.float (consumed text rest), rest)
  | none, none =>
    let (whole, rest) ← wholePart unsigned
    let (fraction, rest) ← fraction rest
    let (exponent, rest) ← exponent rest
    if fraction.isNone && exponent.isNone then
      let n : Int := numberOf 10 whole
      return (← integer64? (if negative then -n else n), rest)
    else
      let places := fraction.getD []
      let power := exponent.getD 0 - places.length
      if !negative && overflows (whole ++ places) power then none
      else return (.float (consumed text rest), rest)

/-- A number of any kind. -/
def number : Scan Value
  | '0' :: 'x' :: rest => inBase 16 isHexDigit rest
  | '0' :: 'o' :: rest => inBase 8 isOctalDigit rest
  | '0' :: 'b' :: rest => inBase 2 isBinaryDigit rest
  | text => decimal text

end TreeNav.Toml
