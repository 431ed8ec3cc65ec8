import TreeNav.Text.Lowercase
import TreeNav.Text.Pieces

/-!
Slash-separated paths: their parts, the file name that they end in (`file_name`), and
whether a file name has a given extension, as `can_handle` asks. A path is bytes, which
need not spell a text. A name that does is compared with an extension in lower case, byte
by byte; to be shown, a path is made a text with a mark wherever its bytes spell none
(`display`). Paths of systems that have drives or other slashes are left out.
-/
namespace TreeNav

namespace Text

/-- The bytes of a text in UTF-8. -/
def bytes (text : String) : List UInt8 := text.toUTF8.data.toList

/-- The text that bytes spell in UTF-8, if they spell one. -/
def ofBytes? (bytes : List UInt8) : Option String := String.fromUTF8? ⟨bytes.toArray⟩

/-- A character that has begun: how many bytes it still needs, the code so far, and the
range of the next byte. -/
structure Begun where
  more : Nat
  code : Nat
  low : UInt8 := 0x80
  high : UInt8 := 0xBF

/-- The mark for bytes that spell nothing. -/
def replacement : Char := '\uFFFD'

/-- A first byte: the character that it is by itself, or that it begins. The second byte
is narrowed where it could spell a code too small or too large, or half of a pair. -/
def beginChar (byte : UInt8) : List Char × Option Begun :=
  if byte < 0x80 then ([Char.ofNat byte.toNat], none)
  else if 0xC2 ≤ byte && byte ≤ 0xDF then ([], some { more := 1, code := byte.toNat % 32 })
  else if 0xE0 ≤ byte && byte ≤ 0xEF then
    ([], some { more := 2, code := byte.toNat % 16
                low := if byte = 0xE0 then 0xA0 else 0x80
                high := if byte = 0xED then 0x9F else 0xBF })
  else if 0xF0 ≤ byte && byte ≤ 0xF4 then
    ([], some { more := 3, code := byte.toNat % 8
                low := if byte = 0xF0 then 0x90 else 0x80
                high := if byte = 0xF4 then 0x8F else 0xBF })
  else ([replacement], none)

/-- The characters that bytes spell, with a mark for every longest stretch of bytes that
could have begun a character and did not. -/
def showBytes : Option Begun → List UInt8 → List Char
  | none, [] => []
  | some _, [] => [replacement]
  | none, byte :: rest =>
    let (out, begun) := beginChar byte
    out ++ showBytes begun rest
  | some begun, byte :: rest =>
    if begun.low ≤ byte && byte ≤ begun.high then
      let code := begun.code * 64 + byte.toNat % 64
      if begun.more ≤ 1 then Char.ofNat code :: showBytes none rest
      else showBytes (some { more := begun.more - 1, code }) rest
    else
      let (out, begun) := beginChar byte
      replacement :: out ++ showBytes begun rest

end Text

/-- A path as the system keeps it. -/
structure RawPath where
  bytes : List UInt8
deriving DecidableEq, Repr

/-- A text stands for the path with its bytes. -/
instance : Coe String RawPath := ⟨fun text => ⟨Text.bytes text⟩⟩

/-- The path as it is shown. -/
def RawPath.display (path : RawPath) : String := String.ofList (Text.showBytes none path.bytes)

namespace FileName

def slash : UInt8 := 0x2F

def dot : UInt8 := 0x2E

/-- The name that leads back up. -/
def up : List UInt8 := [dot, dot]

/-- The parts of a path. Empty parts and single dots name nothing and are left out. -/
def parts (path : RawPath) : List (List UInt8) :=
  (Text.pieces slash path.bytes).filter fun part => part != [] && part != [dot]

/-- The file name of a path: its last part, unless that leads back up. -/
def ofPath? (path : RawPath) : Option (List UInt8) := do
  let last ← (parts path).getLast?
  if last = up then none else some last

/-- Where the dot stands in a name that ends in a dot and the extension. -/
def dotIndex (name extension : List UInt8) : Nat := name.length - extension.length - 1

/-- The name is a stem that is not empty, a dot, and the extension. -/
def hasExtension (name extension : List UInt8) : Bool :=
  extension.length + 1 < name.length && extension.isSuffixOf name &&
    name[dotIndex name extension]? == some dot

/-- The name has the extension, whatever the case of either. -/
def endsIn (name extension : String) : Bool :=
  hasExtension (Text.bytes (Text.lowercase name)) (Text.bytes (Text.lowercase extension))

end FileName

end TreeNav
