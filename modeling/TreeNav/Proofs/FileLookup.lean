import TreeNav.Language.Registry
import TreeNav.Proofs.Storage

/-!
Finding a language by the name of a file. A name is compared with an extension in bytes, and the
byte before the extension has to be a dot. As a byte that begins a character is found nowhere inside
another, the bytes fall apart at the dot only where the text does: the name is a stem that is not
empty, a dot and the extension.
-/
namespace TreeNav

namespace Text

theorem bytes_eq_flatMap (text : String) :
    bytes text = text.toList.flatMap String.utf8EncodeChar := by
  have encoded : text.toByteArray = text.toList.utf8Encode := by
    rw [← String.toByteArray_ofList, String.ofList_toList]
  rw [bytes, String.toUTF8_eq_toByteArray, encoded, List.utf8Encode, List.toList_data_toByteArray]

theorem bytes_append (a b : String) : bytes (a ++ b) = bytes a ++ bytes b := by
  rw [bytes_eq_flatMap, bytes_eq_flatMap, bytes_eq_flatMap, String.toList_append,
    List.flatMap_append]

theorem bytes_inj {a b : String} : bytes a = bytes b ↔ a = b := by
  refine ⟨fun same => ?_, fun same => same ▸ rfl⟩
  have data := Array.toList_inj.mp same
  exact String.toByteArray_inj.mp (ByteArray.ext data)

theorem bytes_eq_nil_iff {text : String} : bytes text = [] ↔ text = "" := by
  rw [← bytes_inj]
  rfl

theorem ofBytes?_eq_some_iff {encoded : List UInt8} {text : String} :
    ofBytes? encoded = some text ↔ encoded = bytes text := by
  constructor
  · intro decoded
    unfold ofBytes? String.fromUTF8? at decoded
    split at decoded
    · cases decoded
      rfl
    · cases decoded
  · rintro rfl
    exact FileStore.fromUTF8?_toUTF8 text

/-- A byte that begins a character stands nowhere else in the encoding of a character. -/
theorem front_eq_nil_of_first {c : Char} {front back : List UInt8} {b : UInt8}
    (begins : b.IsUTF8FirstByte) (encoded : String.utf8EncodeChar c = front ++ b :: back) :
    front = [] := by
  have inside : front.length < (String.utf8EncodeChar c).length := by
    rw [encoded, List.length_append, List.length_cons]
    omega
  have found : (String.utf8EncodeChar c)[front.length] = b := by
    simp [encoded]
  have first := UInt8.isUTF8FirstByte_getElem_utf8EncodeChar.mp (found ▸ begins)
  exact List.length_eq_zero_iff.mp first

/-- Where a byte that begins a character stands in an encoded text, the text falls apart. -/
theorem exists_of_flatMap_eq_append {text : List Char} {front back : List UInt8} {b : UInt8}
    (begins : b.IsUTF8FirstByte)
    (encoded : text.flatMap String.utf8EncodeChar = front ++ b :: back) :
    ∃ stem rest, text = stem ++ rest ∧ stem.flatMap String.utf8EncodeChar = front ∧
      rest.flatMap String.utf8EncodeChar = b :: back := by
  induction text generalizing front with
  | nil => simp at encoded
  | cons c text ih =>
    rw [List.flatMap_cons, List.append_eq_append_iff] at encoded
    rcases encoded with ⟨further, parts, later⟩ | ⟨cut, parts, later⟩
    · obtain ⟨stem, rest, rfl, stem_eq, rest_eq⟩ := ih later
      refine ⟨c :: stem, rest, rfl, ?_, rest_eq⟩
      rw [List.flatMap_cons, stem_eq, parts]
    · cases cut with
      | nil =>
        refine ⟨[c], text, rfl, ?_, later.symm⟩
        rw [List.flatMap_singleton, parts, List.append_nil]
      | cons first cut =>
        -- The byte stands inside the character, so the character begins with it.
        obtain ⟨rfl, tail⟩ := List.cons.inj later
        obtain rfl := front_eq_nil_of_first begins parts
        refine ⟨[], c :: text, rfl, rfl, ?_⟩
        rw [List.flatMap_cons, parts, tail]
        rfl

end Text

namespace FileName

variable {name extension : List UInt8}

/-- Where the name is long enough, neither subtraction stops at zero, and the index is that of a
byte before the extension. -/
theorem dotIndex_add (room : extension.length + 1 < name.length) :
    dotIndex name extension + 1 + extension.length = name.length := by
  unfold dotIndex
  omega

theorem hasExtension_iff : hasExtension name extension = true ↔
    ∃ stem, stem ≠ [] ∧ name = stem ++ dot :: extension := by
  unfold hasExtension
  simp only [Bool.and_eq_true, decide_eq_true_eq, List.isSuffixOf_iff_suffix, beq_iff_eq]
  constructor
  · rintro ⟨⟨room, front, rfl⟩, dotted⟩
    have index := dotIndex_add room
    rcases List.eq_nil_or_concat front with rfl | ⟨stem, last, rfl⟩
    · rw [List.nil_append] at room
      omega
    · rw [List.concat_eq_append, List.append_assoc, List.singleton_append] at *
      rw [List.length_append, List.length_cons] at index room
      have place : dotIndex (stem ++ last :: extension) extension = stem.length := by omega
      rw [place, List.getElem?_append_right (Nat.le_refl _), Nat.sub_self, List.getElem?_cons_zero,
        Option.some.injEq] at dotted
      refine ⟨stem, ?_, by rw [dotted]⟩
      rintro rfl
      simp at room
  · rintro ⟨stem, held, rfl⟩
    have size := List.length_pos_iff.mpr held
    have index : dotIndex (stem ++ dot :: extension) extension = stem.length := by
      simp only [dotIndex, List.length_append, List.length_cons]
      omega
    refine ⟨⟨?_, ?_⟩, ?_⟩
    · simp only [List.length_append, List.length_cons]
      omega
    · exact ⟨stem ++ [dot], by simp⟩
    · rw [index]
      simp

/-- In bytes or in characters, a name has an extension if it is a stem that is not empty, a dot and
the extension. -/
theorem hasExtension_bytes_iff {name extension : String} :
    hasExtension (Text.bytes name) (Text.bytes extension) = true ↔
      ∃ stem, stem ≠ "" ∧ name = stem ++ "." ++ extension := by
  have dotted : Text.bytes ("." ++ extension) = dot :: Text.bytes extension := by
    rw [Text.bytes_append]
    rfl
  rw [hasExtension_iff]
  constructor
  · rintro ⟨front, held, whole⟩
    rw [Text.bytes_eq_flatMap] at whole
    obtain ⟨stem, rest, apart, stem_eq, rest_eq⟩ :=
      Text.exists_of_flatMap_eq_append (by decide) whole
    have tail : String.ofList rest = "." ++ extension := by
      rw [← Text.bytes_inj, dotted, ← rest_eq, Text.bytes_eq_flatMap, String.toList_ofList]
    refine ⟨String.ofList stem, ?_, ?_⟩
    · rintro empty
      rw [← Text.bytes_eq_nil_iff, Text.bytes_eq_flatMap, String.toList_ofList, stem_eq] at empty
      exact held empty
    · rw [String.append_assoc, ← tail, ← String.ofList_append, ← apart, String.ofList_toList]
  · rintro ⟨stem, held, rfl⟩
    refine ⟨Text.bytes stem, fun empty => held (Text.bytes_eq_nil_iff.mp empty), ?_⟩
    rw [String.append_assoc, Text.bytes_append, dotted]

/-- What may come after the name of a file: slashes, and single dots between them. -/
inductive Idle : List UInt8 → Prop
  | done : Idle []
  | slashed {rest : List UInt8} : Idle rest → Idle (slash :: rest)
  | dotted {rest : List UInt8} : Idle rest → Idle (slash :: dot :: rest)

/-- The path ends in this file name. The name has no slash, names more than a place that is known
already, comes first or after a slash, and what follows it names nothing. -/
structure IsNameOf (path name : List UInt8) : Prop where
  solid : slash ∉ name
  proper : name ≠ [] ∧ name ≠ [dot] ∧ name ≠ up
  placed : ∃ front after, path = front ++ name ++ after ∧ Idle after ∧
    (front = [] ∨ ∃ above, front = above ++ [slash])

/-- The part of a path names nothing. -/
def IsBlank (part : List UInt8) : Prop := part = [] ∨ part = [dot]

theorem idle_flatMap {blanks : List (List UInt8)} (blank : ∀ part ∈ blanks, IsBlank part) :
    Idle (blanks.flatMap (slash :: ·)) := by
  induction blanks with
  | nil => exact .done
  | cons first rest ih =>
    obtain ⟨rfl | rfl, others⟩ := List.forall_mem_cons.mp blank
    · exact .slashed (ih others)
    · exact .dotted (ih others)

/-- What is idle adds blank parts only. -/
theorem pieces_append_idle {after : List UInt8} (idle : Idle after) (front : List UInt8) :
    ∃ blanks, (∀ part ∈ blanks, IsBlank part) ∧
      Text.pieces slash (front ++ after) = Text.pieces slash front ++ blanks := by
  induction idle generalizing front with
  | done => exact ⟨[], by simp, by simp⟩
  | slashed _ ih =>
    obtain ⟨blanks, blank, parts⟩ := ih []
    refine ⟨[] :: blanks, List.forall_mem_cons.mpr ⟨.inl rfl, blank⟩, ?_⟩
    rw [Text.pieces_append]
    exact congrArg _ parts
  | dotted _ ih =>
    obtain ⟨blanks, blank, parts⟩ := ih [dot]
    refine ⟨[dot] :: blanks, List.forall_mem_cons.mpr ⟨.inr rfl, blank⟩, ?_⟩
    rw [Text.pieces_append]
    exact congrArg _ parts

/-- The last part of a path is the last piece of it that is not blank. -/
theorem getLast?_parts_iff {path : RawPath} {name : List UInt8} :
    (parts path).getLast? = some name ↔ ¬IsBlank name ∧
      ∃ before blanks, Text.pieces slash path.bytes = before ++ name :: blanks ∧
        ∀ part ∈ blanks, IsBlank part := by
  have kept : ∀ part : List UInt8, (part != [] && part != [dot]) = true ↔ ¬IsBlank part := by
    simp [IsBlank]
  have dropped : ∀ part : List UInt8, (!(part != [] && part != [dot])) = true ↔ IsBlank part := by
    intro part
    rw [Bool.not_eq_true', ← Bool.not_eq_true, kept, Classical.not_not]
  rw [parts, ← List.head?_reverse, ← List.filter_reverse, List.head?_filter,
    List.find?_eq_some_iff_append, kept]
  simp only [dropped]
  refine and_congr_right fun _ => ⟨?_, ?_⟩
  · rintro ⟨after, before, cut, blank⟩
    refine ⟨before.reverse, after.reverse, ?_, ?_⟩
    · simpa using congrArg List.reverse cut
    · simpa using blank
  · rintro ⟨before, blanks, cut, blank⟩
    exact ⟨blanks.reverse, before.reverse, by simp [cut], by simpa using blank⟩

/-- The path around one of its pieces. -/
theorem eq_of_pieces_eq_append {path name : List UInt8} {before after : List (List UInt8)}
    (cut : Text.pieces slash path = before ++ name :: after) :
    ∃ front, path = front ++ name ++ after.flatMap (slash :: ·) ∧
      (front = [] ∨ ∃ above, front = above ++ [slash]) := by
  cases before with
  | nil => exact ⟨[], Text.eq_of_pieces_eq_cons cut, .inl rfl⟩
  | cons first rest =>
    refine ⟨first ++ rest.flatMap (slash :: ·) ++ [slash], ?_, .inr ⟨_, rfl⟩⟩
    rw [Text.eq_of_pieces_eq_cons cut]
    simp

theorem ofPath?_eq_some_iff {path : RawPath} {name : List UInt8} :
    ofPath? path = some name ↔ IsNameOf path.bytes name := by
  have unfolded : ofPath? path = some name ↔
      (parts path).getLast? = some name ∧ name ≠ up := by
    unfold ofPath?
    cases (parts path).getLast? with
    | none => simp
    | some last => by_cases leads : last = up <;> grind
  rw [unfolded, getLast?_parts_iff]
  constructor
  · rintro ⟨⟨held, before, blanks, cut, blank⟩, notUp⟩
    obtain ⟨front, whole, placed⟩ := eq_of_pieces_eq_append cut
    have member : name ∈ Text.pieces slash path.bytes := by simp [cut]
    exact
      { solid := Text.mark_not_mem_of_mem_pieces member
        proper := ⟨fun empty => held (.inl empty), fun single => held (.inr single), notUp⟩
        placed := ⟨front, _, whole, idle_flatMap blank, placed⟩ }
  · rintro ⟨solid, ⟨held, single, notUp⟩, front, after, whole, idle, placed⟩
    refine ⟨⟨fun blank => blank.elim held single, ?_⟩, notUp⟩
    obtain ⟨blanks, blank, cut⟩ := pieces_append_idle idle (front ++ name)
    rw [← whole] at cut
    rcases placed with rfl | ⟨above, rfl⟩
    · refine ⟨[], blanks, ?_, blank⟩
      rw [cut, List.nil_append, Text.pieces_of_not_mem solid]
      rfl
    · refine ⟨Text.pieces slash above, blanks, ?_, blank⟩
      rw [cut, List.append_assoc, List.singleton_append, Text.pieces_append,
        Text.pieces_of_not_mem solid, List.append_assoc]
      rfl

end FileName

/-- The name of the file is a stem that is not empty, a dot and one of the extensions of the
language, whatever the case of either. -/
def LanguageTable.Suits (table : LanguageTable) (path : RawPath) : Prop :=
  ∃ name : String, FileName.IsNameOf path.bytes (Text.bytes name) ∧
    ∃ extension ∈ table.extensions, ∃ stem, stem ≠ "" ∧
      Text.lowercase name = stem ++ "." ++ Text.lowercase extension

theorem LanguageTable.handles_iff {table : LanguageTable} {path : RawPath} :
    table.handles path = true ↔ table.Suits path := by
  have named : ∀ name, (FileName.ofPath? path).bind Text.ofBytes? = some name ↔
      FileName.IsNameOf path.bytes (Text.bytes name) := by
    intro name
    simp only [Option.bind_eq_some_iff, FileName.ofPath?_eq_some_iff, Text.ofBytes?_eq_some_iff]
    constructor
    · rintro ⟨_, isName, rfl⟩
      exact isName
    · intro isName
      exact ⟨_, isName, rfl⟩
  unfold handles Suits
  simp only [← named]
  split
  · rename_i name found
    simp [found, FileName.endsIn, FileName.hasExtension_bytes_iff]
  · rename_i none
    simp [none]

namespace Registry

/-- A file is handled by a language if its name, in lower case, is a stem that is not empty, a dot
and the lower case of one of the language's extensions; the index at which the dot is looked for is
that of a byte of the name. The registry finds the first such language, and none only if there is
none. -/
theorem file_found_by_stem_dot_extension (r : Registry) (path : RawPath) :
    (∀ table : LanguageTable, table.handles path = true ↔ table.Suits path) ∧
    (∀ name extension : List UInt8, extension.length + 1 < name.length →
      FileName.dotIndex name extension + 1 + extension.length = name.length) ∧
    (∀ adapter, r.findByPath? path = some adapter ↔
      adapter.table.Suits path ∧ ∃ earlier later, r.adapters = earlier ++ adapter :: later ∧
        ∀ other ∈ earlier, ¬other.table.Suits path) ∧
    (r.findByPath? path = none ↔ ∀ adapter ∈ r.adapters, ¬adapter.table.Suits path) := by
  refine ⟨fun table => LanguageTable.handles_iff, ?_, ?_, ?_⟩
  · intro name extension room
    exact FileName.dotIndex_add room
  · intro adapter
    rw [findByPath?, List.find?_eq_some_iff_append]
    simp only [LanguageTable.handles_iff, Bool.not_eq_true', ← Bool.not_eq_true]
  · rw [findByPath?, List.find?_eq_none]
    simp only [LanguageTable.handles_iff]

def bare : Adapter := .of { id := "bare", name := "Bare", extensions := [""] }

def archive : Adapter := .of { id := "tar", name := "Tar", extensions := ["zip", "TAR.gz"] }

/-- A single dot at the end of a path is passed over, a name that ends in a dot has the empty
extension, and a name that is all extension has none. -/
theorem archive_found_by_its_name :
    (Text.bytes "tar.gz").length + 1 < (Text.bytes "main.tar.gz").length ∧
    FileName.dotIndex (Text.bytes "main.tar.gz") (Text.bytes "tar.gz") = 4 ∧
    archive.table.Suits ("src/Main.tar.GZ/." : String) ∧
    findByPath? ⟨[bare, archive]⟩ ("src/Main.tar.GZ/." : String) = some archive ∧
    findByPath? ⟨[bare, archive]⟩ ("Main." : String) = some bare ∧
    findByPath? ⟨[bare, archive]⟩ (".tar.gz" : String) = none := by
  have suits : archive.table.Suits ("src/Main.tar.GZ/." : String) := by
    have isName : FileName.IsNameOf (Text.bytes "src/Main.tar.GZ/.") (Text.bytes "Main.tar.GZ") :=
      { solid := by decide +kernel
        proper := by decide +kernel
        placed := ⟨Text.bytes "src/", Text.bytes "/.", by decide +kernel, .dotted .done,
          .inr ⟨Text.bytes "src", by decide +kernel⟩⟩ }
    exact ⟨_, isName, "TAR.gz", by decide +kernel, "main", by decide +kernel, by decide +kernel⟩
  have room : (Text.bytes "tar.gz").length + 1 < (Text.bytes "main.tar.gz").length := by
    decide +kernel
  obtain ⟨handled, index, found, _⟩ :=
    file_found_by_stem_dot_extension ⟨[bare, archive]⟩ ("src/Main.tar.GZ/." : String)
  have unsuited : ¬bare.table.Suits ("src/Main.tar.GZ/." : String) := by
    rw [← handled]
    decide +kernel
  refine ⟨room, ?_, suits, ?_, ?_, ?_⟩
  · have sizes : (Text.bytes "tar.gz").length = 6 ∧ (Text.bytes "main.tar.gz").length = 11 := by
      decide +kernel
    have sum := index _ _ room
    omega
  · exact (found archive).mpr ⟨suits, [bare], [], rfl, by simpa using unsuited⟩
  · obtain ⟨handled, _, found, _⟩ :=
      file_found_by_stem_dot_extension ⟨[bare, archive]⟩ ("Main." : String)
    have suits := (handled bare.table).mp (by decide +kernel)
    exact (found bare).mpr ⟨suits, [], [archive], rfl, by simp⟩
  · obtain ⟨handled, _, _, missed⟩ :=
      file_found_by_stem_dot_extension ⟨[bare, archive]⟩ (".tar.gz" : String)
    simp only [missed, ← handled]
    decide +kernel

end Registry

end TreeNav
