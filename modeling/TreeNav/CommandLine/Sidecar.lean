import TreeNav.Language.Adapter
import TreeNav.Tree.Outline

/-!
Parses kept beside a source. The grammars themselves are not part of this library: the
command takes the parse of a file from an outline that lies next to it, one node a line.
Left out is whether the outline still fits the file.
-/
namespace TreeNav.CommandLine

/-- Where the outline of a file lies. -/
def sidecarPath (file : RawPath) : RawPath := ⟨file.bytes ++ Text.bytes ".outline"⟩

/-- The words of a line and, as the last of them, everything after the first `count`. -/
def splitWords : (count : Nat) → List Char → List (List Char)
  | 0, text => [text]
  | count + 1, text =>
    text.takeWhile (· != ' ') :: splitWords count ((text.dropWhile (· != ' ')).drop 1)

/-- A node on a line: its depth, the ends of its range, `named` or `token`, and its kind. -/
def entryOfLine? (text : String) : Option OutlineEntry := do
  match (splitWords 4 text.toList).map String.ofList with
  | [depth, start, stop, sort, kind] =>
    let named ←
      match sort with
      | "named" => some true
      | "token" => some false
      | _ => none
    return ⟨← depth.toNat?, ⟨kind, named, ⟨← start.toNat?, ← stop.toNat?⟩⟩⟩
  | _ => none

/-- The parse that an outline describes. Its first line says `errors` if the grammar had to
recover from an error, and `ok` if not. -/
def parseOfOutline? (text : String) : Option Parse := do
  match text.splitOn "\n" with
  | first :: lines =>
    let hasErrors ←
      match first with
      | "ok" => some false
      | "errors" => some true
      | _ => none
    let entries ← (lines.filter (· != "")).mapM entryOfLine?
    return ⟨← Tree.ofOutline? entries, hasErrors⟩
  | [] => none

end TreeNav.CommandLine
