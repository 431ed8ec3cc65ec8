import TreeNav.Toml.Printer
import TreeNav.Toml.Reader

/-!
TOML as settings and language tables need it: a reader and a writer of documents. What uses TOML is
stated over any such pair, and what it takes for granted of the pair is a law about the document in
question. The reader and the writer of this library are one pair; they keep every document that
holds settings.
-/
namespace TreeNav.Toml

/-- A reader and a writer of documents. Either may find that it cannot do it. -/
structure Codec where
  read? : String → Option Entries
  write? : Entries → Option String

namespace Codec

/-- What is written for the document is read back as the document. -/
def RoundTrips (codec : Codec) (document : Entries) : Prop :=
  ∀ text, codec.write? document = some text → codec.read? text = some document

/-- Some text is written for the document, and it is read back as the document. -/
def Keeps (codec : Codec) (document : Entries) : Prop :=
  ∃ text, codec.write? document = some text ∧ codec.read? text = some document

theorem Keeps.roundTrips {codec : Codec} {document : Entries} (kept : codec.Keeps document) :
    codec.RoundTrips document := by
  obtain ⟨own, written, read⟩ := kept
  intro text spelt
  rw [written] at spelt
  cases spelt
  exact read

/-- The reader and the writer of this library. -/
def standard : Codec where
  read? := Toml.read?
  write? document := some (write document)

end Codec

end TreeNav.Toml
