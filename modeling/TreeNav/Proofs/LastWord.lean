import Mathlib.Data.List.Nodup
import TreeNav.Proofs.Merging

/-!
Overrides have the last word. Merging them one after the other into a language moves kinds between
its two lists. However often a kind is moved, the last override that mentions it decides it; lists
that hold each kind once between them go on doing so; and an override that is merged again finds
everything as it asks for.
-/
namespace TreeNav.LanguageTable

variable {table : LanguageTable} {texts listed others : List String} {text : String}

/-- No text stands twice in the two lists, be it in one of them or in both. -/
structure Apart (listed others : List String) : Prop where
  listedOnce : listed.Nodup
  othersOnce : others.Nodup
  disjoint : ∀ text ∈ listed, text ∉ others

theorem Apart.symm (apart : Apart listed others) : Apart others listed :=
  ⟨apart.othersOnce, apart.listedOnce, fun text member other => apart.disjoint text other member⟩

/-- A text that moves from one list to the other stands in that one alone. -/
theorem Apart.move (apart : Apart listed others) (text : String) :
    Apart (Text.pushUnique listed text) (others.filter (· != text)) := by
  refine ⟨Text.nodup_pushUnique apart.listedOnce text, apart.othersOnce.filter _, ?_⟩
  intro other member kept
  obtain ⟨old, different⟩ := List.mem_filter.mp kept
  rcases Text.mem_pushUnique.mp member with known | same
  · exact apart.disjoint other known old
  · rw [same, bne_self_eq_false] at different
    cases different

/-- The lists of the language hold each kind once between them. -/
def Separate (table : LanguageTable) : Prop := Apart table.trivial table.significant

theorem separate_markTrivial (separate : table.Separate) (kind : String) :
    (table.markTrivial kind).Separate :=
  Apart.move separate kind

theorem separate_markSignificant (separate : table.Separate) (kind : String) :
    (table.markSignificant kind).Separate :=
  (separate.symm.move kind).symm

/-- One override keeps the lists apart. -/
theorem separate_apply (separate : table.Separate) (o : Override) : (table.apply o).Separate := by
  have first := List.foldlRecOn o.trivial markTrivial separate
    fun _ kept kind _ => separate_markTrivial kept kind
  have second := List.foldlRecOn o.significant markSignificant first
    fun _ kept kind _ => separate_markSignificant kept kind
  rw [apply, foldl_addExtension]
  exact second

/-- A sequence of overrides keeps the lists apart. -/
theorem separate_foldl_apply (separate : table.Separate) (overrides : List Override) :
    (overrides.foldl apply table).Separate :=
  List.foldlRecOn overrides apply separate fun _ kept o _ => separate_apply kept o

/-- A language whose lists are apart decides as many kinds as they hold. -/
theorem size_classifier (separate : table.Separate) :
    table.classifier.size = table.trivial.length + table.significant.length := by
  have keys : table.classifier.verdicts.map Prod.fst =
      table.significant.reverse ++ (table.trivial.reverse ++ []) := by
    rw [classifier_eq, Classifier.keys_decideKinds, Classifier.keys_decideKinds]
    rfl
  have distinct : (table.significant.reverse ++ (table.trivial.reverse ++ [])).Nodup := by
    rw [List.append_nil, List.nodup_append]
    refine ⟨?_, ?_, ?_⟩
    · exact List.nodup_reverse.mpr separate.othersOnce
    · exact List.nodup_reverse.mpr separate.listedOnce
    · intro kind member other member' same
      rw [List.mem_reverse] at member member'
      exact separate.disjoint other member' (same ▸ member)
  rw [Classifier.size, keys, Text.eraseDups_of_nodup distinct]
  simp [Nat.add_comm]

/-- The extensions of an override are there after it was merged, so merging it again adds none. -/
theorem extensions_apply_apply (table : LanguageTable) (o : Override) :
    ((table.apply o).apply o).extensions = (table.apply o).extensions := by
  have merged : ∀ table : LanguageTable, (table.apply o).extensions =
      (o.extensions.map bareExtension).foldl Text.pushUnique table.extensions := by
    intro table
    obtain ⟨_, _, eq⟩ := apply_eq table o
    rw [eq]
  rw [merged (table.apply o)]
  apply Text.foldl_pushUnique_of_known
  intro extension asked
  rw [merged table, Text.mem_foldl_pushUnique]
  exact .inr asked

theorem lastWord?_twice (o : Override) (kind : String) :
    Override.lastWord? [o, o] kind = Override.lastWord? [o] kind := by
  by_cases mentioned : o.mentions kind = true <;> simp [Override.lastWord?, mentioned]

/-- An override that is merged again decides nothing otherwise. -/
theorem verdict_apply_apply (table : LanguageTable) (o : Override) (kind : String) (named : Bool) :
    ((table.apply o).apply o).classifier.verdict kind named =
      (table.apply o).classifier.verdict kind named := by
  have twice := verdict_foldl_apply table [o, o] kind named
  have once := verdict_foldl_apply table [o] kind named
  rw [lastWord?_twice] at twice
  exact twice.trans once.symm

/-- After a sequence of overrides every kind, of named and of anonymous nodes, is decided as the
last override that mentions it says, which takes a kind that it lists both ways for significant, or
as the language decided it if none mentions it. Lists that were apart are still, and then as many
kinds are decided as they hold. An override that is merged twice in a row makes the difference that
it makes once. -/
theorem overrides_have_last_word (table : LanguageTable) (overrides : List Override) :
    (∀ kind named, (overrides.foldl apply table).classifier.verdict kind named =
      (Override.lastWord? overrides kind).getD (table.classifier.verdict kind named)) ∧
    (table.Separate → (overrides.foldl apply table).Separate ∧
      (overrides.foldl apply table).classifier.size =
        (overrides.foldl apply table).trivial.length +
          (overrides.foldl apply table).significant.length) ∧
    ∀ o : Override, ((table.apply o).apply o).extensions = (table.apply o).extensions ∧
      ∀ kind named, ((table.apply o).apply o).classifier.verdict kind named =
        (table.apply o).classifier.verdict kind named := by
  refine ⟨verdict_foldl_apply table overrides, ?_, ?_⟩
  · intro separate
    have still := separate_foldl_apply separate overrides
    exact ⟨still, size_classifier still⟩
  · intro o
    exact ⟨extensions_apply_apply table o, verdict_apply_apply table o⟩

/-- A language in which semicolons count and comments do not, and two overrides that disagree on
comments; the second lists a kind both ways. -/
def sample : LanguageTable :=
  { id := "demo", name := "Demo", extensions := ["demo"], anonymousTrivial := true
    trivial := ["comment"], significant := [";"] }

def sampleOverrides : List Override :=
  [{ trivial := [";"], significant := ["comment"], extensions := [".dm", "demo"] },
    { trivial := ["comment", "line"], significant := ["line"] }]

theorem sample_overrides_have_last_word :
    sample.Separate ∧
    (∀ named, (sampleOverrides.foldl apply sample).classifier.verdict "comment" named = .trivial) ∧
    (∀ named, (sampleOverrides.foldl apply sample).classifier.verdict "line" named =
      .significant) ∧
    (sampleOverrides.foldl apply sample).classifier.verdict "," false = .trivial ∧
    (sampleOverrides.foldl apply sample).classifier.size = 3 := by
  have separate : sample.Separate := ⟨by decide +kernel, by decide +kernel, by decide +kernel⟩
  obtain ⟨decided, kept, _⟩ := overrides_have_last_word sample sampleOverrides
  refine ⟨separate, fun named => ?_, fun named => ?_, ?_, ?_⟩
  · rw [decided, show Override.lastWord? sampleOverrides "comment" = some .trivial from
      by decide +kernel, Option.getD_some]
  · rw [decided, show Override.lastWord? sampleOverrides "line" = some .significant from
      by decide +kernel, Option.getD_some]
  · rw [decided]
    decide +kernel
  · rw [(kept separate).2]
    decide +kernel

end TreeNav.LanguageTable
