import TreeNav.Toml.Printer
import TreeNav.Toml.Reader

/-!
Strings and keys are read back as they were written, in each of the four ways of quoting. What
is read is what was written before the rest of the text, as long as the rest does not go on with
a quote or with a character of a bare key.
-/
namespace TreeNav.Toml

/-- What may follow a key or a string: neither a quote nor a character of a bare key. -/
def Ends (rest : List Char) : Prop :=
  ∀ c ∈ rest.head?, c ≠ '"' ∧ c ≠ '\'' ∧ isBareKey c = false

section Escapes

/-- The characters spell another one after a backslash, and none of them is taken for a line
end. -/
structure Spells (c : Char) (used : List Char) : Prop where
  read : ∀ more, escape? (used ++ more) = some (c, used.length)
  inLine : ∀ more, newline? (dropBlanks (used ++ more)) = none

theorem fourHex_spells : ∀ code < 128, (fourHex code).all isHexDigit = true ∧
    numberOf 16 (fourHex code) = code := by
  decide +kernel

theorem spells_code {c : Char} (small : c.toNat < 128) : Spells c ('u' :: fourHex c.toNat) := by
  obtain ⟨digits, number⟩ := fourHex_spells c.toNat small
  constructor
  · intro more
    have valid : c.toNat.isValidChar := c.valid
    have taken : (fourHex c.toNat ++ more).take 4 = fourHex c.toNat := rfl
    have length : (fourHex c.toNat).length = 4 := rfl
    simp [escape?, codePoint?, taken, digits, number, valid, length]
  · intro more
    rfl

/-- A character that is no quote is written as it is, or spelled after a backslash. -/
theorem escaped_cases (lines : Bool) (c : Char) :
    (escaped lines c = [c] ∧ c ≠ '\\' ∧ (isPrintable c = true ∨ lines = true ∧ c = '\n')) ∨
    ∃ used, escaped lines c = '\\' :: used ∧ Spells c used := by
  by_cases short : c = '\x08' ∨ c = '\t' ∨ c = '\x0c' ∨ c = '\r' ∨ c = '\\'
  · right
    rcases short with rfl | rfl | rfl | rfl | rfl <;>
      exact ⟨_, rfl, fun _ => rfl, fun _ => rfl⟩
  by_cases newline : c = '\n'
  · subst newline
    cases lines with
    | true => exact .inl ⟨rfl, by decide, .inr ⟨rfl, rfl⟩⟩
    | false => exact .inr ⟨_, rfl, fun _ => rfl, fun _ => rfl⟩
  simp only [not_or] at short
  obtain ⟨noBackspace, noTab, noFeed, noReturn, noBackslash⟩ := short
  have long : escaped lines c =
      if isControl c then '\\' :: 'u' :: fourHex c.toNat else [c] := by
    simp [escaped, noBackspace, noTab, newline, noFeed, noReturn, noBackslash]
  rw [long]
  by_cases control : isControl c = true
  · have small : c.toNat < 128 := by
      simp only [isControl, Bool.or_eq_true, Bool.and_eq_true, decide_eq_true_eq, beq_iff_eq]
        at control
      omega
    exact .inr ⟨_, if_pos control, spells_code small⟩
  · refine .inl ⟨if_neg control, noBackslash, .inl ?_⟩
    simp_all [isControl, isPrintable]

/-- The quote is spelled by itself. -/
theorem spells_quote : Spells '"' ['"'] := ⟨fun _ => rfl, fun _ => rfl⟩

end Escapes

section Basic

theorem basicString_skip (used more : List Char) :
    basicString used.length (used ++ more) = basicString 0 more := by
  induction used with
  | nil => rfl
  | cons c rest ih => exact ih

theorem basicString_plain {c : Char} (noQuote : c ≠ '"') (noBackslash : c ≠ '\\')
    (printable : isPrintable c = true) (rest : List Char) :
    basicString 0 (c :: rest) = (basicString 0 rest).map (push c) := by
  simp [basicString, noQuote, noBackslash, printable]

theorem basicString_escape {c : Char} {used : List Char} (spells : Spells c used)
    (rest : List Char) :
    basicString 0 ('\\' :: (used ++ rest)) = (basicString 0 rest).map (push c) := by
  rw [basicString]
  simp [spells.read, basicString_skip]

/-- A basic string on one line is read back. -/
theorem basicString_basicInside (text : List Char) (run : Nat) (rest : List Char) :
    basicString 0 (basicInside false run text ++ '"' :: rest) = some (text, rest) := by
  induction text generalizing run with
  | nil => rfl
  | cons c tail ih =>
    rw [basicInside]
    by_cases isQuote : c = '"'
    · subst isQuote
      have spelled := basicString_escape spells_quote (basicInside false 0 tail ++ '"' :: rest)
      simp only [if_true, Bool.false_and, Bool.false_eq_true, if_false, List.cons_append]
      exact spelled.trans (by rw [ih]; rfl)
    · rw [if_neg isQuote, List.append_assoc]
      rcases escaped_cases false c with ⟨written, noBackslash, printable | onLines⟩ |
        ⟨used, written, spells⟩
      · rw [written, List.singleton_append, basicString_plain isQuote noBackslash printable, ih]
        rfl
      · exact absurd onLines.1 Bool.false_ne_true
      · rw [written, List.cons_append, basicString_escape spells, ih]
        rfl

end Basic

section Closing

variable {quote : Char}

/-- Fewer than three quotes close nothing. -/
theorem closing?_of_few {run : Nat} {c : Char} (few : run < 3) (other : c ≠ quote)
    (more : List Char) : closing? quote (List.replicate run quote ++ c :: more) = none := by
  have counted : ((List.replicate run quote ++ c :: more).takeWhile (· == quote)).length = run := by
    rw [List.takeWhile_append_of_pos (by simp), List.takeWhile_cons_of_neg (by simpa using other)]
    simp
  simp only [closing?, counted]
  rw [if_neg (by omega), if_neg (by omega), if_neg (by omega)]

/-- Of the quotes at the end of a string all but the last three belong to it. -/
theorem closing?_of_end {run : Nat} (short : run ≤ 2) {rest : List Char}
    (apart : rest.head? ≠ some quote) :
    closing? quote (List.replicate run quote ++ [quote, quote, quote] ++ rest) =
      some (List.replicate run quote, rest) := by
  have all : List.replicate run quote ++ [quote, quote, quote] =
      List.replicate (run + 3) quote := by
    rw [← List.replicate_append_replicate]
    rfl
  have counted : ((List.replicate (run + 3) quote ++ rest).takeWhile (· == quote)).length =
      run + 3 := by
    rw [List.takeWhile_append_of_pos (by simp)]
    cases rest with
    | nil => simp
    | cons c more =>
      rw [List.takeWhile_cons_of_neg (by simpa using apart)]
      simp
  rw [all, closing?]
  simp only [counted]
  obtain rfl | rfl | rfl : run = 0 ∨ run = 1 ∨ run = 2 := by omega
  · rfl
  · rfl
  · rfl

/-- A text with at most two quotes in a row, counting `before` of them right before it: either it
is made of quotes alone, or something else follows its first ones. -/
theorem quotes_cases {before : Nat} {text : List Char} (short : longestRun quote before text ≤ 2) :
    (∃ run, before + run ≤ 2 ∧ text = List.replicate run quote) ∨
    ∃ run c more, before + run ≤ 2 ∧ text = List.replicate run quote ++ c :: more ∧ c ≠ quote := by
  induction text generalizing before with
  | nil => exact .inl ⟨0, short, rfl⟩
  | cons c tail ih =>
    rw [longestRun] at short
    by_cases same : c = quote
    · subst same
      rw [if_pos rfl] at short
      rcases ih short with ⟨run, bound, rfl⟩ | ⟨run, d, more, bound, rfl, other⟩
      · exact .inl ⟨run + 1, by omega, rfl⟩
      · exact .inr ⟨run + 1, d, more, by omega, rfl, other⟩
    · rw [if_neg same] at short
      exact .inr ⟨0, c, tail, by omega, rfl, same⟩

end Closing

section Literal

theorem printable_of_not_control {c : Char} (noControl : isControl c = false) :
    c = '\n' ∨ isPrintable c = true := by
  by_cases newline : c = '\n'
  · exact .inl newline
  · refine .inr ?_
    by_cases tab : c = '\t'
    · simp [isPrintable, tab]
    · simp_all [isControl, isPrintable]

/-- A literal string on one line is read back. -/
theorem literalString_append {text : List Char}
    (plain : ∀ c ∈ text, c ≠ '\'' ∧ isPrintable c = true) (rest : List Char) :
    literalString (text ++ '\'' :: rest) = some (text, rest) := by
  induction text with
  | nil => rfl
  | cons c tail ih =>
    obtain ⟨noQuote, printable⟩ := plain c List.mem_cons_self
    rw [List.cons_append, literalString, if_neg (by simpa using noQuote), if_pos printable,
      ih fun d further => plain d (List.mem_cons_of_mem _ further)]
    rfl

theorem ne_return {c : Char} (printable : isPrintable c = true) : c ≠ '\r' := by
  rintro rfl
  revert printable
  decide

theorem literalLines_plain {c : Char} (noQuote : c ≠ '\'')
    (allowed : c = '\n' ∨ isPrintable c = true) (rest : List Char) :
    literalLines (c :: rest) = (literalLines rest).map (push c) := by
  rw [literalLines, if_neg (by simpa using noQuote)]
  by_cases newline : c = '\n'
  · rw [if_pos (by simpa using newline)]
  · have printable := allowed.resolve_left newline
    rw [if_neg (by simpa using newline), if_neg (by simpa using ne_return printable),
      if_pos printable]

theorem literalLines_closed {rest : List Char} {closed : List Char × List Char}
    (closes : closing? '\'' ('\'' :: rest) = some closed) :
    literalLines ('\'' :: rest) = some closed := by
  simp [literalLines, closes]

theorem literalLines_quote {rest : List Char} (opened : closing? '\'' ('\'' :: rest) = none) :
    literalLines ('\'' :: rest) = (literalLines rest).map (push '\'') := by
  simp [literalLines, opened]

/-- A literal string of several lines is read back. -/
theorem literalLines_append {text : List Char} (noControl : ∀ c ∈ text, isControl c = false)
    {before : Nat} (short : longestRun '\'' before text ≤ 2) {rest : List Char}
    (apart : rest.head? ≠ some '\'') :
    literalLines (text ++ ['\'', '\'', '\''] ++ rest) = some (text, rest) := by
  induction text generalizing before with
  | nil => exact literalLines_closed (closing?_of_end (Nat.zero_le 2) apart)
  | cons c tail ih =>
    have later : ∀ d ∈ tail, isControl d = false := fun d further =>
      noControl d (List.mem_cons_of_mem _ further)
    rw [longestRun] at short
    rw [List.cons_append, List.cons_append]
    by_cases isQuote : c = '\''
    · subst isQuote
      rw [if_pos rfl] at short
      -- Only quotes at the end of the text run into the closing ones.
      rcases quotes_cases short with ⟨run, bound, rfl⟩ | ⟨run, d, more, bound, shape, other⟩
      · exact literalLines_closed (closing?_of_end (by omega : run + 1 ≤ 2) apart)
      · have opened := closing?_of_few (by omega : run + 1 < 3) other
          (more ++ ['\'', '\'', '\''] ++ rest)
        have whole : '\'' :: (tail ++ ['\'', '\'', '\''] ++ rest) =
            List.replicate (run + 1) '\'' ++ d :: (more ++ ['\'', '\'', '\''] ++ rest) := by
          simp [shape, List.replicate_succ]
        rw [literalLines_quote (whole ▸ opened), ih later short]
        rfl
    · rw [if_neg isQuote] at short
      rw [literalLines_plain isQuote (printable_of_not_control (noControl c List.mem_cons_self)),
        ih later (by omega : longestRun '\'' 0 tail ≤ 2)]
      rfl

end Literal

section BasicLines

theorem basicLines_skip (used more : List Char) :
    basicLines used.length false (used ++ more) = basicLines 0 false more := by
  induction used with
  | nil => rfl
  | cons c rest ih => exact ih

theorem basicLines_plain {c : Char} (noQuote : c ≠ '"') (noBackslash : c ≠ '\\')
    (allowed : c = '\n' ∨ isPrintable c = true) (rest : List Char) :
    basicLines 0 false (c :: rest) = (basicLines 0 false rest).map (push c) := by
  rw [basicLines]
  by_cases newline : c = '\n'
  · simp [newline]
  · have printable := allowed.resolve_left newline
    simp [noQuote, noBackslash, newline, ne_return printable, printable]

theorem basicLines_escape {c : Char} {used : List Char} (spells : Spells c used)
    (rest : List Char) :
    basicLines 0 false ('\\' :: (used ++ rest)) = (basicLines 0 false rest).map (push c) := by
  rw [basicLines]
  simp [spells.read, spells.inLine, basicLines_skip]

theorem basicLines_closed {rest : List Char} {closed : List Char × List Char}
    (closes : closing? '"' ('"' :: rest) = some closed) :
    basicLines 0 false ('"' :: rest) = some closed := by
  simp [basicLines, closes]

theorem basicLines_quote {rest : List Char} (opened : closing? '"' ('"' :: rest) = none) :
    basicLines 0 false ('"' :: rest) = (basicLines 0 false rest).map (push '"') := by
  simp [basicLines, opened]

/-- What is written of a text begins with at most two quotes that are not spelled, counting
`run` of them right before it, and they are all of it or something else follows them. -/
theorem basicInside_quotes {run : Nat} (short : run ≤ 2) (text : List Char) :
    (∃ more, run + more ≤ 2 ∧ text = List.replicate more '"' ∧
      basicInside true run text = List.replicate more '"') ∨
    ∃ more c tail, run + more ≤ 2 ∧
      basicInside true run text = List.replicate more '"' ++ c :: tail ∧ c ≠ '"' := by
  induction text generalizing run with
  | nil => exact .inl ⟨0, short, rfl, rfl⟩
  | cons c rest ih =>
    rw [basicInside]
    by_cases isQuote : c = '"'
    · subst isQuote
      by_cases room : run < 2
      · rw [if_pos rfl, if_pos (by simpa using room)]
        rcases ih (by omega : run + 1 ≤ 2) with ⟨more, bound, rfl, written⟩ |
          ⟨more, d, tail, bound, written, other⟩
        · exact .inl ⟨more + 1, by omega, rfl, by rw [written]; rfl⟩
        · exact .inr ⟨more + 1, d, tail, by omega, by rw [written]; rfl, other⟩
      · rw [if_pos rfl, if_neg (by simpa using room)]
        exact .inr ⟨0, '\\', _, by omega, rfl, by decide⟩
    · rw [if_neg isQuote]
      rcases escaped_cases true c with ⟨written, _⟩ | ⟨used, written, _⟩
      · exact .inr ⟨0, c, _, by omega, by rw [written]; rfl, isQuote⟩
      · exact .inr ⟨0, '\\', _, by omega, by rw [written]; rfl, by decide⟩

/-- A basic string of several lines is read back. -/
theorem basicLines_basicInside (text : List Char) {run : Nat} (short : run ≤ 2) {rest : List Char}
    (apart : rest.head? ≠ some '"') :
    basicLines 0 false (basicInside true run text ++ ['"', '"', '"'] ++ rest) =
      some (text, rest) := by
  induction text generalizing run with
  | nil => exact basicLines_closed (closing?_of_end (Nat.zero_le 2) apart)
  | cons c tail ih =>
    rw [basicInside]
    by_cases isQuote : c = '"'
    · subst isQuote
      rw [if_pos rfl]
      by_cases room : run < 2
      · -- The quote stands as it is: it ends the string if only quotes follow it.
        rw [if_pos (by simpa using room), List.cons_append, List.cons_append]
        rcases basicInside_quotes (by omega : run + 1 ≤ 2) tail with ⟨more, bound, all, written⟩ |
          ⟨more, d, others, bound, written, other⟩
        · rw [written, all]
          exact basicLines_closed (closing?_of_end (by omega : more + 1 ≤ 2) apart)
        · have opened := closing?_of_few (by omega : more + 1 < 3) other
            (others ++ ['"', '"', '"'] ++ rest)
          have shape : '"' :: (basicInside true (run + 1) tail ++ ['"', '"', '"'] ++ rest) =
              List.replicate (more + 1) '"' ++ d :: (others ++ ['"', '"', '"'] ++ rest) := by
            simp [written, List.replicate_succ]
          rw [basicLines_quote (shape ▸ opened), ih (by omega)]
          rfl
      · rw [if_neg (by simpa using room)]
        have spelled := basicLines_escape spells_quote
          (basicInside true 0 tail ++ ['"', '"', '"'] ++ rest)
        exact spelled.trans (by rw [ih (Nat.zero_le 2)]; rfl)
    · rw [if_neg isQuote, List.append_assoc, List.append_assoc]
      rcases escaped_cases true c with ⟨written, noBackslash, allowed⟩ | ⟨used, written, spells⟩
      · rw [written, List.singleton_append,
          basicLines_plain isQuote noBackslash (allowed.symm.imp_left And.right),
          ← List.append_assoc, ih (Nat.zero_le 2)]
        rfl
      · rw [written, List.cons_append, basicLines_escape spells, ← List.append_assoc,
          ih (Nat.zero_le 2)]
        rfl

end BasicLines

section Strings

theorem Ends.apart {rest : List Char} (ends : Ends rest) :
    rest.head? ≠ some '"' ∧ rest.head? ≠ some '\'' :=
  ⟨fun starts => (ends _ starts).1 rfl, fun starts => (ends _ starts).2.1 rfl⟩

theorem newline?_eq_none {text : List Char} (inLine : ∀ c ∈ text.head?, c ≠ '\n' ∧ c ≠ '\r') :
    newline? text = none := by
  rw [newline?.eq_def]
  split
  · exact absurd rfl (inLine '\n' rfl).1
  · exact absurd rfl (inLine '\r' rfl).2
  · rfl

/-- The line end that is written after the opening quotes, if there is any, is dropped again. -/
theorem dropFirstNewline_opening {text written : List Char}
    (inLine : '\n' ∉ text → ∀ c ∈ written.head?, c ≠ '\n' ∧ c ≠ '\r') :
    dropFirstNewline ((if text.contains '\n' then ['\n'] else []) ++ written) = written := by
  by_cases hasNewline : '\n' ∈ text
  · simp [hasNewline, dropFirstNewline, newline?]
  · simp [hasNewline, dropFirstNewline, newline?_eq_none (inLine hasNewline)]

theorem head_basicInside {lines : Bool} {run : Nat} {text rest : List Char} {d : Char}
    (first : d ∈ (basicInside lines run text ++ '"' :: rest).head?) :
    d = '"' ∨ d = '\\' ∨ d ∈ text ∧ (isPrintable d = true ∨ d = '\n') := by
  cases text with
  | nil =>
    left
    simpa [basicInside] using first.symm
  | cons c tail =>
    rw [basicInside] at first
    by_cases isQuote : c = '"'
    · rw [if_pos isQuote] at first
      split at first
      · left
        simpa using first.symm
      · right
        left
        simpa using first.symm
    · rw [if_neg isQuote] at first
      rcases escaped_cases lines c with ⟨written, _, allowed⟩ | ⟨used, written, _⟩
      · obtain rfl : c = d := by simpa [written] using first
        exact .inr (.inr ⟨List.mem_cons_self, allowed.imp_right And.right⟩)
      · right
        left
        simpa [written] using first.symm

theorem le_longestRun (quote : Char) (before : Nat) (text : List Char) :
    before ≤ longestRun quote before text := by
  induction text generalizing before with
  | nil => exact Nat.le_refl before
  | cons c rest ih =>
    rw [longestRun]
    split
    · exact Nat.le_of_succ_le (ih (before + 1))
    · exact Nat.le_max_left ..

theorem not_mem_of_longestRun {quote : Char} {text : List Char}
    (none : longestRun quote 0 text = 0) : quote ∉ text := by
  induction text with
  | nil => exact List.not_mem_nil
  | cons c rest ih =>
    rw [longestRun] at none
    split at none
    · have positive := le_longestRun quote (0 + 1) rest
      omega
    · rename_i other
      rw [List.mem_cons, not_or]
      exact ⟨Ne.symm other, ih (by omega)⟩

theorem write_basic (text rest : List Char) : Quoting.basic.write text ++ rest =
    '"' :: (basicInside false 0 text ++ '"' :: rest) := by
  simp [Quoting.write]

theorem write_literal (text rest : List Char) :
    Quoting.literal.write text ++ rest = '\'' :: (text ++ '\'' :: rest) := by
  simp [Quoting.write]

/-- What stands after one quote is taken for a string on one line, unless two more follow. -/
theorem quoted_of_single {written : List Char} (single : ∀ more, written ≠ '"' :: '"' :: more) :
    quoted ('"' :: written) =
      (basicString 0 written).map fun (s, rest) => (String.ofList s, rest) := by
  rw [quoted.eq_def]
  split
  · rename_i more shape
    exact absurd (List.cons.inj shape).2 (single more)
  · simp_all
  · simp_all
  · simp_all
  · simp_all

/-- On one line no quote is written as it is. -/
theorem head_basicInside_line (run : Nat) (c : Char) (tail rest : List Char) :
    (basicInside false run (c :: tail) ++ rest).head? ≠ some '"' := by
  rw [basicInside]
  by_cases isQuote : c = '"'
  · simp [isQuote]
  · rw [if_neg isQuote]
    rcases escaped_cases false c with ⟨written, _⟩ | ⟨used, written, _⟩
    · simpa [written] using isQuote
    · simp [written]

theorem quoted_basic (text : List Char) {rest : List Char} (ends : Ends rest) :
    quoted (Quoting.basic.write text ++ rest) = some (String.ofList text, rest) := by
  rw [write_basic, quoted_of_single, basicString_basicInside]
  · rfl
  · intro more shape
    cases text with
    | nil =>
      rw [basicInside, List.nil_append] at shape
      exact ends.apart.1 (by rw [(List.cons.inj shape).2]; rfl)
    | cons c tail =>
      exact head_basicInside_line 0 c tail ('"' :: rest) (by rw [shape]; rfl)

theorem quoted_literal {text : List Char} (plain : ∀ c ∈ text, c ≠ '\'' ∧ isPrintable c = true)
    {rest : List Char} (ends : Ends rest) :
    quoted (Quoting.literal.write text ++ rest) = some (String.ofList text, rest) := by
  have single : ∀ more, text ++ '\'' :: rest ≠ '\'' :: '\'' :: more := by
    intro more shape
    cases text with
    | nil => exact ends.apart.2 (by rw [(List.cons.inj shape).2]; rfl)
    | cons c tail => exact (plain c List.mem_cons_self).1 (List.cons.inj shape).1
  have read := literalString_append plain rest
  rw [write_literal, quoted.eq_def]
  split
  · simp_all
  · rename_i more shape
    exact absurd (List.cons.inj shape).2 (single more)
  · simp_all
  · rename_i shape
    rw [← (List.cons.inj shape).2, read]
    rfl
  · simp_all

theorem quoted_basicLines (text : List Char) {rest : List Char} (ends : Ends rest) :
    quoted (Quoting.basicLines.write text ++ rest) = some (String.ofList text, rest) := by
  have whole : Quoting.basicLines.write text ++ rest = '"' :: '"' :: '"' ::
      ((if text.contains '\n' then ['\n'] else []) ++
        (basicInside true 0 text ++ ['"', '"', '"'] ++ rest)) := by
    simp [Quoting.write]
  rw [whole, quoted, dropFirstNewline_opening,
    basicLines_basicInside text (Nat.zero_le 2) ends.apart.1]
  · rfl
  · intro noNewline c first
    rw [List.append_assoc] at first
    rcases head_basicInside first with rfl | rfl | ⟨member, allowed⟩
    · decide
    · decide
    · have inLine : c ≠ '\n' := fun same => noNewline (same ▸ member)
      exact ⟨inLine, ne_return (allowed.resolve_right inLine)⟩

theorem quoted_literalLines {text : List Char} (noControl : ∀ c ∈ text, isControl c = false)
    (short : longestRun '\'' 0 text ≤ 2) {rest : List Char} (ends : Ends rest) :
    quoted (Quoting.literalLines.write text ++ rest) = some (String.ofList text, rest) := by
  have whole : Quoting.literalLines.write text ++ rest = '\'' :: '\'' :: '\'' ::
      ((if text.contains '\n' then ['\n'] else []) ++ (text ++ ['\'', '\'', '\''] ++ rest)) := by
    simp [Quoting.write]
  rw [whole, quoted, dropFirstNewline_opening, literalLines_append noControl short ends.apart.2]
  · rfl
  · intro noNewline c first
    cases text with
    | nil =>
      obtain rfl : '\'' = c := by simpa using first
      decide
    | cons d tail =>
      obtain rfl : d = c := by simpa using first
      refine ⟨fun same => noNewline (same ▸ List.mem_cons_self), ?_⟩
      rintro rfl
      exact absurd (noControl '\r' List.mem_cons_self) (by decide)

end Strings

theorem noControl_of_needs {text : List Char} (noControl : (needsOf text).control = false) :
    ∀ c ∈ text, isControl c = false := by
  simpa [needsOf] using noControl

/-- A text that can stand between single quotes. -/
theorem plain_of_needs {text : List Char} (noControl : (needsOf text).control = false)
    (noQuotes : (needsOf text).singleQuotes = 0) (noNewline : (needsOf text).newline = false) :
    ∀ c ∈ text, c ≠ '\'' ∧ isPrintable c = true := by
  intro c member
  have inLine : '\n' ∉ text := by simpa [needsOf] using noNewline
  refine ⟨fun same => not_mem_of_longestRun noQuotes (same ▸ member), ?_⟩
  rcases printable_of_not_control (noControl_of_needs noControl c member) with newline | printable
  · exact absurd (newline ▸ member) inLine
  · exact printable

/-- Every string is read back, however it is quoted. -/
theorem quoted_stringText (content : String) {rest : List Char} (ends : Ends rest) :
    quoted (stringText content ++ rest) = some (content, rest) := by
  have same : String.ofList content.toList = content := String.ofList_toList
  unfold stringText quotingOf
  dsimp only
  generalize content.toList = text at same ⊢
  subst same
  split
  · exact quoted_basic text ends
  split
  · rename_i allowed
    simp only [Bool.and_eq_true, Bool.not_eq_true', decide_eq_true_eq] at allowed
    exact quoted_literal (plain_of_needs allowed.1.1 allowed.1.2 allowed.2) ends
  split
  · exact quoted_basicLines text ends
  split
  · rename_i allowed
    simp only [Bool.and_eq_true, Bool.not_eq_true', decide_eq_true_eq] at allowed
    exact quoted_literalLines (noControl_of_needs allowed.1) allowed.2 ends
  split
  · exact quoted_basicLines text ends
  · exact quoted_basic text ends

theorem simpleKey_basic (text rest : List Char) :
    simpleKey (Quoting.basic.write text ++ rest) = some (String.ofList text, rest) := by
  rw [write_basic, simpleKey, basicString_basicInside]
  rfl

theorem simpleKey_bare {text rest : List Char} (filled : text ≠ [])
    (bare : ∀ c ∈ text, isBareKey c = true) (ends : Ends rest) :
    simpleKey (text ++ rest) = some (String.ofList text, rest) := by
  have stops : ∀ c ∈ rest.head?, isBareKey c = false := fun c first => (ends c first).2.2
  have taken : (text ++ rest).takeWhile isBareKey = text := by
    rw [List.takeWhile_append_of_pos bare]
    cases rest with
    | nil => simp
    | cons c more => rw [List.takeWhile_cons_of_neg (by simpa using stops c rfl), List.append_nil]
  have left : (text ++ rest).dropWhile isBareKey = rest := by
    rw [List.dropWhile_append_of_pos bare]
    cases rest with
    | nil => rfl
    | cons c more => exact List.dropWhile_cons_of_neg (by simpa using stops c rfl)
  obtain ⟨c, tail, rfl⟩ := List.exists_cons_of_ne_nil filled
  have first := bare c List.mem_cons_self
  rw [simpleKey.eq_def]
  split
  · rename_i shape
    obtain rfl := (List.cons.inj shape).1
    exact absurd first (by decide)
  · rename_i shape
    obtain rfl := (List.cons.inj shape).1
    exact absurd first (by decide)
  · rw [taken, left]

/-- Every key is read back. -/
theorem simpleKey_keyText (key : String) {rest : List Char} (ends : Ends rest) :
    simpleKey (keyText key ++ rest) = some (key, rest) := by
  have same : String.ofList key.toList = key := String.ofList_toList
  unfold keyText
  dsimp only
  generalize key.toList = text at same ⊢
  subst same
  split
  · rename_i bare
    simp only [Bool.and_eq_true, Bool.not_eq_true', List.isEmpty_eq_false_iff, List.all_eq_true]
      at bare
    exact simpleKey_bare bare.1 bare.2 ends
  split
  · exact simpleKey_basic text rest
  split
  · rename_i allowed
    simp only [Bool.and_eq_true, Bool.not_eq_true', decide_eq_true_eq] at allowed
    rw [write_literal, simpleKey,
      literalString_append (plain_of_needs allowed.1.1 allowed.1.2 allowed.2)]
    rfl
  · exact simpleKey_basic text rest

/-- The first character of a written key. -/
theorem exists_head_keyText (key : String) :
    ∃ c tail, keyText key = c :: tail ∧ (isBareKey c = true ∨ c = '"' ∨ c = '\'') := by
  unfold keyText
  dsimp only
  split
  · rename_i bare
    simp only [Bool.and_eq_true, Bool.not_eq_true', List.isEmpty_eq_false_iff, List.all_eq_true]
      at bare
    obtain ⟨c, tail, eq⟩ := List.exists_cons_of_ne_nil bare.1
    exact ⟨c, tail, eq, .inl (bare.2 c (eq ▸ List.mem_cons_self))⟩
  split
  · exact ⟨'"', _, rfl, .inr (.inl rfl)⟩
  split
  · exact ⟨'\'', _, rfl, .inr (.inr rfl)⟩
  · exact ⟨'"', _, rfl, .inr (.inl rfl)⟩

/-- The first character of a written string. -/
theorem exists_head_stringText (content : String) :
    ∃ c tail, stringText content = c :: tail ∧ (c = '"' ∨ c = '\'') := by
  unfold stringText
  dsimp only
  cases quotingOf content.toList with
  | basic => exact ⟨'"', _, rfl, .inl rfl⟩
  | literal => exact ⟨'\'', _, rfl, .inr rfl⟩
  | basicLines => exact ⟨'"', _, rfl, .inl rfl⟩
  | literalLines => exact ⟨'\'', _, rfl, .inr rfl⟩

end TreeNav.Toml
