import Mathlib.Data.List.Forall2
import Mathlib.Data.List.TakeWhile
import TreeNav.Language.Table

/-!
Merging overrides into a language. A kind is decided by the last override that mentions it, and
an override that lists it both ways takes it for significant; the language's own lists decide
the rest. The extensions of the overrides follow those of the language, each once. Nothing else
of the language changes.
-/
namespace TreeNav

/-- What two lists of kinds say of a kind: a kind that stands in both is significant. -/
def Verdict.ofLists? (significant trivial : List String) (kind : String) : Option Verdict :=
  if kind ∈ significant then some .significant
  else if kind ∈ trivial then some .trivial
  else none

namespace Classifier

/-- Setting up the categories leaves everything else alone. -/
theorem foldl_members (c : Classifier) (categories : List Category)
    (kinds : Category → List String) :
    (categories.map fun category => Step.members category (kinds category)).foldl step c =
      { c with
        members := c.members ++ categories.flatMap fun category =>
          (kinds category).map fun kind => (category, kind) } := by
  induction categories generalizing c with
  | nil => simp
  | cons category rest ih =>
    rw [List.map_cons, List.foldl_cons, ih, List.flatMap_cons, ← List.append_assoc]
    rfl

end Classifier

namespace LanguageTable

variable {kind : String}

/-- What the lists of the language say of a kind. -/
def verdict? (table : LanguageTable) (kind : String) : Option Verdict :=
  Verdict.ofLists? table.significant table.trivial kind

/-- The verdict of the language on a kind that its lists leave open. -/
def fallback (table : LanguageTable) (kind : String) (named : Bool) : Verdict :=
  if table.anonymousTrivial && !named then .trivial
  else if table.punctuationTrivial && Classifier.isPunctuation kind then .trivial
  else .significant

/-- The flags of a language, with no kind decided yet. -/
def undecided (table : LanguageTable) : Classifier where
  anonymousTrivial := table.anonymousTrivial
  punctuationTrivial := table.punctuationTrivial

/-- The classifier of a language decides first its trivial kinds and then its significant ones. -/
theorem classifier_eq (table : LanguageTable) : table.classifier =
    { (table.undecided.decideKinds .trivial table.trivial).decideKinds .significant
        table.significant with
      members := Category.all.flatMap fun category =>
        (table.kinds category).map fun kind => (category, kind)
      containers := table.argumentLists.map fun kind => (.argument, kind) } := by
  rw [classifier, Classifier.ofSteps, classifierSteps, List.foldl_append, Classifier.foldl_members]
  rfl

theorem verdict_classifier (table : LanguageTable) (kind : String) (named : Bool) :
    table.classifier.verdict kind named =
      (table.verdict? kind).getD (table.fallback kind named) := by
  rw [classifier_eq]
  simp only [Classifier.verdict, Classifier.lookup_decideKinds, verdict?, Verdict.ofLists?]
  by_cases significant : kind ∈ table.significant
  · simp [significant]
  · by_cases trivial : kind ∈ table.trivial
    · simp [significant, trivial]
    · simp only [significant, trivial, if_false]
      rfl

/-- A way of marking kinds: the kind marked is decided, and nothing but the two lists of kinds
changes. -/
structure Marks (mark : LanguageTable → String → LanguageTable) (verdict : Verdict) : Prop where
  decides : ∀ table marked kind, (mark table marked).verdict? kind =
    if kind = marked then some verdict else table.verdict? kind
  keeps : ∀ table marked, ∃ trivial significant,
    mark table marked = { table with trivial, significant }

theorem marks_markTrivial : Marks markTrivial .trivial where
  decides table marked kind := by
    by_cases same : kind = marked <;>
      simp [verdict?, Verdict.ofLists?, markTrivial, Text.mem_pushUnique, same]
  keeps table marked := ⟨_, _, rfl⟩

theorem marks_markSignificant : Marks markSignificant .significant where
  decides table marked kind := by
    by_cases same : kind = marked <;>
      simp [verdict?, Verdict.ofLists?, markSignificant, Text.mem_pushUnique, same]
  keeps table marked := ⟨_, _, rfl⟩

/-- Marking several kinds decides all of them. -/
theorem Marks.foldl {mark : LanguageTable → String → LanguageTable} {verdict : Verdict}
    (marks : Marks mark verdict) (table : LanguageTable) (kinds : List String) :
    (∀ kind, (kinds.foldl mark table).verdict? kind =
      if kind ∈ kinds then some verdict else table.verdict? kind) ∧
    ∃ trivial significant, kinds.foldl mark table = { table with trivial, significant } := by
  induction kinds generalizing table with
  | nil => exact ⟨fun _ => rfl, _, _, rfl⟩
  | cons first rest ih =>
    obtain ⟨decided, trivial, significant, eq⟩ := ih (mark table first)
    obtain ⟨_, _, step⟩ := marks.keeps table first
    refine ⟨?_, trivial, significant, ?_⟩
    · intro kind
      rw [List.foldl_cons, decided, marks.decides]
      by_cases same : kind = first <;> simp [same]
    · rw [List.foldl_cons, eq, step]

theorem foldl_addExtension (table : LanguageTable) (added : List String) :
    added.foldl addExtension table =
      { table with
        extensions := (added.map bareExtension).foldl Text.pushUnique table.extensions } := by
  induction added generalizing table with
  | nil => rfl
  | cons first rest ih => rw [List.foldl_cons, ih]; rfl

/-- Nothing but the lists of kinds and the extensions are adjusted, and these lists only by
appending to them. -/
theorem apply_eq (table : LanguageTable) (o : Override) :
    ∃ trivial significant, table.apply o =
      { table with
        trivial, significant
        extensions :=
          (o.extensions.map bareExtension).foldl Text.pushUnique table.extensions } := by
  obtain ⟨_, _, _, first⟩ := marks_markTrivial.foldl table o.trivial
  obtain ⟨_, trivial, significant, second⟩ :=
    marks_markSignificant.foldl (o.trivial.foldl markTrivial table) o.significant
  refine ⟨trivial, significant, ?_⟩
  rw [apply, foldl_addExtension, second, first]

end LanguageTable

/-- What the override says of a kind. -/
def Override.verdict? (o : Override) (kind : String) : Option Verdict :=
  Verdict.ofLists? o.significant o.trivial kind

namespace LanguageTable

variable {kind : String}

/-- What the override mentions it decides. -/
theorem verdict?_apply (table : LanguageTable) (o : Override) (kind : String) :
    (table.apply o).verdict? kind = (o.verdict? kind).or (table.verdict? kind) := by
  have unlisted : (table.apply o).verdict? kind = (o.significant.foldl markSignificant
      (o.trivial.foldl markTrivial table)).verdict? kind := by
    rw [apply, foldl_addExtension]
    rfl
  rw [unlisted, (marks_markSignificant.foldl _ _).1, (marks_markTrivial.foldl _ _).1,
    Override.verdict?, Verdict.ofLists?]
  by_cases significant : kind ∈ o.significant
  · simp [significant]
  · by_cases trivial : kind ∈ o.trivial <;> simp [significant, trivial]

theorem apply_of_isEmpty (table : LanguageTable) {o : Override} (empty : o.isEmpty = true) :
    table.apply o = table := by
  simp only [Override.isEmpty, Bool.and_eq_true, List.isEmpty_iff] at empty
  obtain ⟨⟨noTrivial, noSignificant⟩, noExtensions⟩ := empty
  rw [apply, noTrivial, noSignificant, noExtensions]
  rfl

/-- The second text is the first without the dots that it begins with. -/
def IsBare (extension bare : String) : Prop :=
  ∃ dots, extension.toList = List.replicate dots '.' ++ bare.toList ∧ bare.toList.head? ≠ some '.'

theorem isBare_bareExtension (extension : String) : IsBare extension (bareExtension extension) := by
  rw [IsBare, bareExtension, String.toList_ofList]
  refine ⟨(extension.toList.takeWhile (· == '.')).length, ?_, ?_⟩
  · have dotted : extension.toList.takeWhile (· == '.') =
        List.replicate (extension.toList.takeWhile (· == '.')).length '.' :=
      List.eq_replicate_iff.mpr ⟨rfl, fun c member => by
        simpa using List.mem_takeWhile_imp member⟩
    rw [← dotted, List.takeWhile_append_dropWhile]
  · intro starts
    have kept := List.head?_dropWhile_not (· == '.') extension.toList
    simp [starts] at kept

end LanguageTable

/-- The override lists the kind. -/
def Override.mentions (o : Override) (kind : String) : Bool :=
  o.trivial.contains kind || o.significant.contains kind

theorem Override.verdict?_eq (o : Override) (kind : String) :
    o.verdict? kind = if o.mentions kind then
      some (if kind ∈ o.significant then .significant else .trivial) else none := by
  unfold Override.verdict? Verdict.ofLists? Override.mentions
  by_cases significant : kind ∈ o.significant
  · simp [significant]
  · by_cases trivial : kind ∈ o.trivial <;> simp [significant, trivial]

/-- What the last override that mentions a kind says of it. -/
def Override.lastWord? (overrides : List Override) (kind : String) : Option Verdict :=
  (overrides.filter fun o => o.mentions kind).getLast?.map fun o =>
    if kind ∈ o.significant then .significant else .trivial

/-- What comes of a language when some overrides are merged into it, one after the other. -/
structure LanguageTable.Adjusted (overrides : List Override) (table result : LanguageTable) :
    Prop where
  id : result.id = table.id
  name : result.name = table.name
  kinds : result.kinds = table.kinds
  argumentLists : result.argumentLists = table.argumentLists
  /-- The extensions of the overrides follow those of the language, without repetition. -/
  extensions : ∃ added, List.Forall₂ IsBare (overrides.flatMap Override.extensions) added ∧
    result.extensions = (table.extensions ++ added).eraseDups
  extended : table.extensions <+: result.extensions
  distinct : result.extensions.Nodup

namespace LanguageTable

/-- After some overrides, the last that mentions a kind has decided it. -/
theorem verdict?_foldl_apply (table : LanguageTable) (overrides : List Override) (kind : String) :
    (overrides.foldl apply table).verdict? kind =
      match (overrides.filter fun o => o.mentions kind).getLast? with
      | some o => some (if kind ∈ o.significant then .significant else .trivial)
      | none => table.verdict? kind := by
  induction overrides generalizing table with
  | nil => rfl
  | cons o rest ih =>
    -- The first override counts only if none of the later ones mentions the kind.
    rw [List.foldl_cons, ih, verdict?_apply, Override.verdict?_eq, List.filter_cons]
    by_cases mentioned : o.mentions kind = true
    · rw [if_pos mentioned, if_pos mentioned, List.getLast?_cons]
      cases (rest.filter fun o => o.mentions kind).getLast? <;> rfl
    · rw [if_neg mentioned, if_neg mentioned, Option.none_or]

theorem extensions_foldl_apply (table : LanguageTable) (overrides : List Override) :
    (overrides.foldl apply table).extensions =
      ((overrides.flatMap Override.extensions).map bareExtension).foldl Text.pushUnique
        table.extensions := by
  induction overrides generalizing table with
  | nil => rfl
  | cons o rest ih =>
    obtain ⟨_, _, eq⟩ := apply_eq table o
    rw [List.foldl_cons, ih, eq, List.flatMap_cons, List.map_append, List.foldl_append]

/-- Overrides leave everything but the lists of kinds and the extensions as it is. -/
theorem foldl_apply_eq (table : LanguageTable) (overrides : List Override) :
    ∃ trivial significant extensions, overrides.foldl apply table =
      { table with trivial, significant, extensions } := by
  induction overrides generalizing table with
  | nil => exact ⟨_, _, _, rfl⟩
  | cons o rest ih =>
    obtain ⟨_, _, step⟩ := apply_eq table o
    obtain ⟨trivial, significant, extensions, eq⟩ := ih (table.apply o)
    exact ⟨trivial, significant, extensions, by rw [List.foldl_cons, eq, step]⟩

/-- The verdict on a kind is that of the last override that mentions it, or else that of the
language. -/
theorem verdict_foldl_apply (table : LanguageTable) (overrides : List Override) (kind : String)
    (named : Bool) : (overrides.foldl apply table).classifier.verdict kind named =
      (Override.lastWord? overrides kind).getD (table.classifier.verdict kind named) := by
  obtain ⟨_, _, _, eq⟩ := foldl_apply_eq table overrides
  have leftOpen : (overrides.foldl apply table).fallback kind named =
      table.fallback kind named := by
    rw [eq]
    rfl
  rw [verdict_classifier, verdict?_foldl_apply, leftOpen, verdict_classifier, Override.lastWord?]
  cases (overrides.filter fun o => o.mentions kind).getLast? <;> rfl

theorem adjusted_foldl_apply {table : LanguageTable} (distinct : table.extensions.Nodup)
    (overrides : List Override) : Adjusted overrides table (overrides.foldl apply table) := by
  obtain ⟨_, _, _, eq⟩ := foldl_apply_eq table overrides
  obtain ⟨listed, once⟩ := Text.foldl_pushUnique distinct
    ((overrides.flatMap Override.extensions).map bareExtension)
  rw [← extensions_foldl_apply] at listed once
  have bare : List.Forall₂ IsBare (overrides.flatMap Override.extensions)
      ((overrides.flatMap Override.extensions).map bareExtension) := by
    rw [List.forall₂_map_right_iff, List.forall₂_same]
    exact fun extension _ => isBare_bareExtension extension
  refine ⟨by rw [eq], by rw [eq], by rw [eq], by rw [eq], ⟨_, bare, listed⟩, ?_, once⟩
  rw [listed, List.eraseDups_append, Text.eraseDups_of_nodup distinct]
  exact List.prefix_append ..

end LanguageTable

end TreeNav
