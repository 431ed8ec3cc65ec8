import Mathlib.Data.List.Nodup
import TreeNav.Language.Registry
import TreeNav.Proofs.LetterCase
import TreeNav.Proofs.Merging

/-!
Overrides of the built-in languages. A registry comes of them exactly when every key names a
built-in language in ASCII letters of either case, and then every override goes to the one
language that its key names. Keys are looked for in their full lower case but sorted to the
languages by the case of ASCII letters; on the ids of the built-in languages the two agree.
-/
namespace TreeNav

/-- The overrides whose key is the id, in ascending order of their keys. -/
def Overrides.matching (overrides : Overrides) (id : String) : List Override :=
  (overrides.entries.filter fun entry => Text.sameIgnoringAsciiCase entry.1 id).map Prod.snd

/-- The key is the id of the language in ASCII letters of either case. -/
def LanguageTable.HasKey (table : LanguageTable) (key : String) : Prop :=
  Text.sameIgnoringAsciiCase key table.id = true

namespace LanguageTable

theorem isPlainName_builtin : ∀ table ∈ builtin, Text.IsPlainName table.id := by
  decide +kernel

theorem nodup_extensions_builtin : ∀ table ∈ builtin, table.extensions.Nodup := by
  decide +kernel

theorem lowercase_eq_id_iff {table : LanguageTable} (member : table ∈ builtin) (key : String) :
    Text.lowercase key = table.id ↔ table.HasKey key :=
  (isPlainName_builtin table member).lowercase_eq_iff key

end LanguageTable

/-- What comes of an adapter when some overrides are merged into it, one after the other. -/
structure Adapter.Adjusted (overrides : List Override) (adapter result : Adapter) : Prop where
  table : LanguageTable.Adjusted overrides adapter.table result.table
  /-- The last override that mentions a kind decides it in the classifier that is kept. -/
  verdict : ∀ kind named, result.classifier.verdict kind named =
    match (overrides.filter fun o => o.mentions kind).getLast? with
    | some o => if kind ∈ o.significant then .significant else .trivial
    | none => adapter.classifier.verdict kind named
  members : result.classifier.members = adapter.classifier.members
  containers : result.classifier.containers = adapter.classifier.containers

namespace Adapter

/-- Overrides that ask for nothing make no difference to a table, so they may be passed over. -/
theorem table_withOverride (adapter : Adapter) (o : Override) :
    (adapter.withOverride o).table = adapter.table.apply o := by
  unfold withOverride
  split
  · rename_i empty
    exact (adapter.table.apply_of_isEmpty empty).symm
  · rfl

/-- What is kept as a classifier follows from what becomes of the table. -/
theorem adjusted_of_table {overrides : List Override} {adapter result : Adapter}
    (distinct : adapter.table.extensions.Nodup)
    (merged : result.table = overrides.foldl LanguageTable.apply adapter.table) :
    Adjusted overrides adapter result := by
  have table := LanguageTable.adjusted_foldl_apply distinct overrides
  rw [← merged] at table
  refine ⟨table, ?_, ?_, ?_⟩
  · intro kind named
    rw [result.agrees, adapter.agrees, merged, LanguageTable.verdict_foldl_apply,
      Override.lastWord?]
    cases (overrides.filter fun o => o.mentions kind).getLast? <;> rfl
  · rw [result.agrees, adapter.agrees, LanguageTable.classifier_eq, LanguageTable.classifier_eq,
      table.kinds]
  · rw [result.agrees, adapter.agrees, LanguageTable.classifier_eq, LanguageTable.classifier_eq,
      table.argumentLists]

end Adapter

namespace Registry

variable {overrides : Overrides} {key : String}

theorem nodup_builtinIds : builtinIds.Nodup := by
  decide +kernel

/-- The key names a built-in language. -/
def IsBuiltinKey (key : String) : Prop := ∃ table ∈ LanguageTable.builtin, table.HasKey key

instance (key : String) : Decidable (IsBuiltinKey key) :=
  inferInstanceAs (Decidable (∃ table ∈ LanguageTable.builtin,
    Text.sameIgnoringAsciiCase key table.id = true))

theorem lowercase_mem_builtinIds_iff : Text.lowercase key ∈ builtinIds ↔ IsBuiltinKey key := by
  rw [builtinIds_eq, List.mem_map]
  constructor
  · rintro ⟨table, member, same⟩
    exact ⟨table, member, (LanguageTable.lowercase_eq_id_iff member key).mp same.symm⟩
  · rintro ⟨table, member, named⟩
    exact ⟨table, member, ((LanguageTable.lowercase_eq_id_iff member key).mpr named).symm⟩

/-- A key names no two built-in languages. -/
theorem eq_of_hasKey {a b : LanguageTable} (memberA : a ∈ LanguageTable.builtin)
    (memberB : b ∈ LanguageTable.builtin) (namesA : a.HasKey key) (namesB : b.HasKey key) :
    a = b := by
  have idA := (LanguageTable.lowercase_eq_id_iff memberA key).mpr namesA
  have idB := (LanguageTable.lowercase_eq_id_iff memberB key).mpr namesB
  have distinct : (LanguageTable.builtin.map LanguageTable.id).Nodup :=
    builtinIds_eq ▸ nodup_builtinIds
  exact List.inj_on_of_nodup_map distinct memberA memberB (idA.symm.trans idB)

/-- The table of an adapter has been adjusted by the overrides that name the language. -/
theorem table_overridden (overrides : Overrides) (adapter : Adapter) :
    (overridden overrides adapter).table =
      (overrides.matching adapter.table.id).foldl LanguageTable.apply adapter.table := by
  rw [overridden, Overrides.matching, List.foldl_map, List.foldl_filter]
  refine (List.foldl_hom Adapter.table fun result entry => ?_).symm
  by_cases named : Text.sameIgnoringAsciiCase entry.1 adapter.table.id = true
  · simp only [named, if_true, result.table_withOverride]
  · simp only [named, if_false, Bool.false_eq_true]

theorem adjusted_overridden (overrides : Overrides) {adapter : Adapter}
    (member : adapter.table ∈ LanguageTable.builtin) :
    Adapter.Adjusted (overrides.matching adapter.table.id) adapter
      (overridden overrides adapter) :=
  Adapter.adjusted_of_table (LanguageTable.nodup_extensions_builtin adapter.table member)
    (table_overridden overrides adapter)

/-- A language that no key names stays as it is. -/
theorem overridden_of_unnamed {adapter : Adapter}
    (unnamed : ∀ entry ∈ overrides.entries, ¬adapter.table.HasKey entry.1) :
    overridden overrides adapter = adapter := by
  have none : overrides.matching adapter.table.id = [] := by
    rw [Overrides.matching, List.filter_eq_nil_iff.mpr unnamed, List.map_nil]
  apply Adapter.ext_table
  rw [table_overridden, none, List.foldl_nil]

theorem table_mem_builtin {adapter : Adapter} (member : adapter ∈ builtin.adapters) :
    adapter.table ∈ LanguageTable.builtin := by
  obtain ⟨table, listed, rfl⟩ := List.mem_map.mp member
  exact listed

/-- What can come of some overrides: the registry of the languages so adjusted, or a refusal of
the least key that names none of them. -/
theorem withOverrides_cases (overrides : Overrides) :
    ((∀ entry ∈ overrides.entries, IsBuiltinKey entry.1) ∧
      withOverrides overrides = .ok ⟨builtin.adapters.map (overridden overrides)⟩) ∨
    ∃ entry ∈ overrides.entries, ¬IsBuiltinKey entry.1 ∧
      (∀ other ∈ overrides.entries, other.1 < entry.1 → IsBuiltinKey other.1) ∧
      withOverrides overrides = .error (.unsupportedLanguage entry.1) := by
  unfold withOverrides
  split
  · rename_i key o found
    obtain ⟨unknown, before, after, split, known⟩ := List.find?_eq_some_iff_append.mp found
    have ascending : Ascending (before ++ (key, o) :: after) := split ▸ overrides.ascending
    refine .inr ⟨(key, o), List.mem_of_find?_eq_some found, ?_, ?_, rfl⟩
    · simpa [lowercase_mem_builtinIds_iff] using unknown
    · intro other member less
      have earlier : other ∈ before := by
        rw [split, List.mem_append, List.mem_cons] at member
        rcases member with earlier | rfl | later
        · exact earlier
        · exact absurd less (String.lt_irrefl _)
        · have tail := List.pairwise_cons.mp (List.pairwise_append.mp ascending).2.1
          exact absurd (tail.1 other later) (String.lt_asymm less)
      simpa [lowercase_mem_builtinIds_iff] using known other earlier
  · rename_i found
    refine .inl ⟨?_, rfl⟩
    intro entry member
    have known := List.find?_eq_none.mp found entry member
    simpa [lowercase_mem_builtinIds_iff] using known

/-- A registry comes of the overrides if and only if all their keys name built-in languages;
otherwise the least key that does not is refused. In the registry every built-in language, with the
classifier that is kept of it, has been adjusted by exactly the overrides whose keys name it, each
key naming one language, and a language that no key names is as it was. -/
theorem overrides_reach_named_languages (overrides : Overrides) :
    ((∃ registry, withOverrides overrides = .ok registry) ↔
      ∀ entry ∈ overrides.entries, IsBuiltinKey entry.1) ∧
    (∀ fault, withOverrides overrides = .error fault ↔ ∃ entry ∈ overrides.entries,
      fault = .unsupportedLanguage entry.1 ∧ ¬IsBuiltinKey entry.1 ∧
        ∀ other ∈ overrides.entries, other.1 < entry.1 → IsBuiltinKey other.1) ∧
    ∀ registry, withOverrides overrides = .ok registry →
      (∀ entry ∈ overrides.entries,
        ∃! table, table ∈ LanguageTable.builtin ∧ table.HasKey entry.1) ∧
      List.Forall₂ (fun adapter result =>
          Adapter.Adjusted (overrides.matching adapter.table.id) adapter result ∧
          ((∀ entry ∈ overrides.entries, ¬adapter.table.HasKey entry.1) → result = adapter))
        builtin.adapters registry.adapters := by
  rcases withOverrides_cases overrides with ⟨known, answer⟩ |
    ⟨entry, member, unknown, least, answer⟩
  · rw [answer]
    refine ⟨⟨fun _ => known, fun _ => ⟨_, rfl⟩⟩, ?_, ?_⟩
    · intro fault
      constructor
      · intro same
        cases same
      · rintro ⟨entry, member, _, unknown, _⟩
        exact absurd (known entry member) unknown
    · intro registry same
      cases same
      refine ⟨?_, ?_⟩
      · intro entry member
        obtain ⟨table, builtin, named⟩ := known entry member
        refine ⟨table, ⟨builtin, named⟩, ?_⟩
        exact fun other facts => eq_of_hasKey facts.1 builtin facts.2 named
      · rw [List.forall₂_map_right_iff, List.forall₂_same]
        intro adapter listed
        exact ⟨adjusted_overridden overrides (table_mem_builtin listed), overridden_of_unnamed⟩
  · rw [answer]
    refine ⟨⟨?_, fun known => absurd (known entry member) unknown⟩, ?_, ?_⟩
    · rintro ⟨registry, same⟩
      cases same
    · intro fault
      constructor
      · intro same
        cases same
        exact ⟨entry, member, rfl, unknown, least⟩
      · rintro ⟨other, listed, rfl, refused, lesser⟩
        -- Two keys of which neither has a refused key before it are the same.
        have same : other.1 = entry.1 := by
          rcases Std.lt_trichotomy other.1 entry.1 with less | same | greater
          · exact absurd (least other listed less) refused
          · exact same
          · exact absurd (lesser entry member greater) unknown
        rw [same]
    · intro registry same
      cases same

/-- Two spellings of one language that disagree on a kind, and an override that asks for
nothing. -/
def arrayOverrides : Overrides :=
  ⟨[("JSON", { trivial := ["array", "object"], extensions := ["..jsonc", "json"] }),
    ("Json", { significant := ["array"], extensions := [".jsonc", "json5"] }),
    ("RUST", {})], by unfold Ascending; decide +kernel⟩

theorem array_overrides_reach_json :
    ∃ registry, withOverrides arrayOverrides = .ok registry ∧
      (∀ entry ∈ arrayOverrides.entries,
        ∃! table, table ∈ LanguageTable.builtin ∧ table.HasKey entry.1) ∧
      List.Forall₂ (fun adapter result =>
          Adapter.Adjusted (arrayOverrides.matching adapter.table.id) adapter result ∧
          ((∀ entry ∈ arrayOverrides.entries, ¬adapter.table.HasKey entry.1) → result = adapter))
        builtin.adapters registry.adapters := by
  obtain ⟨succeeds, _, reached⟩ := overrides_reach_named_languages arrayOverrides
  obtain ⟨registry, made⟩ := succeeds.mpr (by decide +kernel)
  exact ⟨registry, made, reached registry made⟩

end Registry

end TreeNav
