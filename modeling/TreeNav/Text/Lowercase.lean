import TreeNav.Text.CaseContext
import TreeNav.Text.CaseRun

/-!
Lower case for names. Full Unicode lower case (`to_lowercase`) is used for motion names,
category names, override keys and file names; language ids and names compare by the
letters of ASCII alone (`eq_ignore_ascii_case`). Rules of single languages are left out.
-/
namespace TreeNav.Text

/-- The lower case of one character out of context. The dotted capital I is the
only one that becomes two characters. -/
def lowerChar (c : Char) : List Char :=
  if c.toNat < 128 then [c.toLower]
  else if c = 'İ' then ['i', '\u0307']
  else match caseRuns.find? (·.holds c.toNat) with
    | some run => [Char.ofNat (run.map c.toNat)]
    | none => [c]

/-- Lower case of the characters that follow `before`, which is given nearest
first. A capital sigma that closes a word takes its final form. -/
def lowerAfter (before : List Char) : List Char → List Char
  | [] => []
  | c :: rest =>
    let low :=
      if c = 'Σ' then
        if meetsCased before && !meetsCased rest then ['ς'] else ['σ']
      else lowerChar c
    low ++ lowerAfter (c :: before) rest

/-- Full lower case of a text. -/
def lowercase (text : String) : String := String.ofList (lowerAfter [] text.toList)

/-- The texts agree once the capital letters of ASCII are lowered. -/
def sameIgnoringAsciiCase (a b : String) : Bool :=
  a.toList.map Char.toLower == b.toList.map Char.toLower

theorem lowerChar_of_ascii {c : Char} (ascii : c.toNat < 128) : lowerChar c = [c.toLower] := by
  simp [lowerChar, ascii]

end TreeNav.Text
