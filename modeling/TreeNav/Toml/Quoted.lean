import TreeNav.Toml.Scan

/-!
Quoted strings of TOML: basic strings with escapes and literal strings without, each on
one line or on several. Every scanner here starts after the opening quotes.
-/
namespace TreeNav.Toml

/-- The character that a one-letter escape stands for. -/
def simpleEscape? : Char → Option Char
  | 'b' => some '\x08'
  | 't' => some '\t'
  | 'n' => some '\n'
  | 'f' => some '\x0c'
  | 'r' => some '\r'
  | '"' => some '"'
  | '\\' => some '\\'
  | _ => none

/-- The character whose code point is spelled by exactly `count` hexadecimal digits at
the front of the text. Surrogates and numbers past the last code point are no characters. -/
def codePoint? (count : Nat) (text : List Char) : Option Char :=
  let digits := text.take count
  if digits.length = count && digits.all isHexDigit then
    let code := numberOf 16 digits
    if code.isValidChar then some (Char.ofNat code) else none
  else none

/-- Reads an escape after its backslash: the character, and how many characters spell it. -/
def escape? : List Char → Option (Char × Nat)
  | 'u' :: rest => (codePoint? 4 rest).map fun c => (c, 5)
  | 'U' :: rest => (codePoint? 8 rest).map fun c => (c, 9)
  | c :: _ => (simpleEscape? c).map fun d => (d, 1)
  | [] => none

/-- The rest of a basic string, of which the next `skip` characters are already read. -/
def basicString (skip : Nat) : Scan (List Char)
  | [] => none
  | c :: rest =>
    match skip with
    | skip + 1 => basicString skip rest
    | 0 =>
      if c == '"' then some ([], rest)
      else if c == '\\' then
        match escape? rest with
        | some (escaped, used) => (basicString used rest).map (push escaped)
        | none => none
      else if isPrintable c then (basicString 0 rest).map (push c)
      else none

/-- The rest of a literal string. -/
def literalString : Scan (List Char)
  | [] => none
  | c :: rest =>
    if c == '\'' then some ([], rest)
    else if isPrintable c then (literalString rest).map (push c)
    else none

/-- Whether the quotes at the front of the text close a string of several lines. Three do;
one or two more before them still belong to the string. -/
def closing? (quote : Char) (text : List Char) : Option (List Char × List Char) :=
  let run := (text.takeWhile (· == quote)).length
  if 5 ≤ run then some ([quote, quote], text.drop 5)
  else if run = 4 then some ([quote], text.drop 4)
  else if run = 3 then some ([], text.drop 3)
  else none

/-- The rest of a basic string of several lines. After a backslash at the end of a line
all blanks and line ends up to the next other character are left out, which `trim` says. -/
def basicLines (skip : Nat) (trim : Bool) : Scan (List Char)
  | [] => none
  | c :: rest =>
    match skip with
    | skip + 1 => basicLines skip trim rest
    | 0 =>
      if trim && (isBlank c || c == '\n' || (c == '\r' && rest.head? == some '\n')) then
        basicLines 0 true rest
      else if c == '"' then
        match closing? '"' (c :: rest) with
        | some closed => some closed
        | none => (basicLines 0 false rest).map (push c)
      else if c == '\\' then
        if (newline? (dropBlanks rest)).isSome then basicLines 0 true rest
        else
          match escape? rest with
          | some (escaped, used) => (basicLines used false rest).map (push escaped)
          | none => none
      else if c == '\n' then (basicLines 0 false rest).map (push c)
      else if c == '\r' then
        if rest.head? == some '\n' then basicLines 0 false rest else none
      else if isPrintable c then (basicLines 0 false rest).map (push c)
      else none

/-- The rest of a literal string of several lines. -/
def literalLines : Scan (List Char)
  | [] => none
  | c :: rest =>
    if c == '\'' then
      match closing? '\'' (c :: rest) with
      | some closed => some closed
      | none => (literalLines rest).map (push c)
    else if c == '\n' then (literalLines rest).map (push c)
    else if c == '\r' then
      if rest.head? == some '\n' then literalLines rest else none
    else if isPrintable c then (literalLines rest).map (push c)
    else none

/-- A line end right after the opening quotes does not belong to the string. -/
def dropFirstNewline (text : List Char) : List Char := (newline? text).getD text

/-- A string of any of the four kinds. -/
def quoted : Scan String
  | '"' :: '"' :: '"' :: rest =>
    (basicLines 0 false (dropFirstNewline rest)).map fun (s, rest) => (String.ofList s, rest)
  | '\'' :: '\'' :: '\'' :: rest =>
    (literalLines (dropFirstNewline rest)).map fun (s, rest) => (String.ofList s, rest)
  | '"' :: rest => (basicString 0 rest).map fun (s, rest) => (String.ofList s, rest)
  | '\'' :: rest => (literalString rest).map fun (s, rest) => (String.ofList s, rest)
  | _ => none

end TreeNav.Toml
