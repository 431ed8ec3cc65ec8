import TreeNav.Proofs.Documents
import TreeNav.Proofs.Storage
import TreeNav.Settings.File

/-!
Settings files. The text of any settings holds these settings again, whatever texts and keys
there are in them. What is written to a path is loaded from it, and without force nothing that
is there is written over.
-/
namespace TreeNav.Settings

section Texts

/-- What can be read back one by one can be read back all together. -/
theorem mapM_map {α β : Type} (read : β → Option α) (write : α → β)
    (back : ∀ a, read (write a) = some a) (items : List α) :
    (items.map write).mapM read = some items := by
  induction items with
  | nil => rfl
  | cons first rest ih =>
    rw [List.map_cons, List.mapM_cons, back, ih]
    rfl

theorem texts?_textsValue (texts : List String) : (textsValue texts).texts? = some texts :=
  mapM_map Toml.Value.text? .text (fun _ => rfl) texts

theorem readOverride?_overrideValue (o : Override) : readOverride? (overrideValue o) = some o := by
  have trivial := texts?_textsValue o.trivial
  have significant := texts?_textsValue o.significant
  have extensions := texts?_textsValue o.extensions
  simp [readOverride?, overrideValue, Toml.Value.record?, Toml.fieldOr, List.lookup_cons, trivial,
    significant, extensions]

theorem readLanguages?_table (languages : SortedMap Override) :
    readLanguages? (.table (languages.entries.map fun e => (e.1, overrideValue e.2))) =
      some languages := by
  unfold readLanguages? Toml.Value.table?
  rw [Option.bind_eq_bind, Option.bind_some, mapM_map]
  · exact congrArg some languages.ofList_entries
  · intro e
    show (readOverride? (overrideValue e.2) >>= _) = _
    rw [readOverride?_overrideValue]
    rfl

theorem lookup_format (s : Settings) :
    s.entries.lookup "format" = s.format.map fun format => .text format.name := by
  unfold entries
  cases s.format <;> cases s.select <;> cases s.languages.isEmpty <;> rfl

theorem lookup_select (s : Settings) : s.entries.lookup "select" = s.select.map .boolean := by
  unfold entries
  cases s.format <;> cases s.select <;> cases s.languages.isEmpty <;> rfl

theorem lookup_languages (s : Settings) :
    s.entries.lookup "languages" = if s.languages.isEmpty then none else
      some (.table (s.languages.entries.map fun e => (e.1, overrideValue e.2))) := by
  unfold entries
  cases s.format <;> cases s.select <;> cases s.languages.isEmpty <;> rfl

/-- Settings are found again in their document. -/
theorem ofEntries?_entries (s : Settings) : ofEntries? s.entries = some s := by
  have format : Toml.fieldOr s.entries "format" (fun v => (Format.ofValue? v).map some) none =
      some s.format := by
    rw [Toml.fieldOr, lookup_format]
    cases s.format with
    | none => rfl
    | some format => cases format <;> rfl
  have select : Toml.fieldOr s.entries "select" (fun v => v.boolean?.map some) none =
      some s.select := by
    rw [Toml.fieldOr, lookup_select]
    cases s.select <;> rfl
  have languages : Toml.fieldOr s.entries "languages" readLanguages? .empty = some s.languages := by
    rw [Toml.fieldOr, lookup_languages]
    by_cases empty : s.languages.isEmpty = true
    · rw [if_pos empty, SortedMap.eq_empty empty]
    · rw [if_neg empty]
      exact readLanguages?_table s.languages
  rw [ofEntries?, format, select, languages]
  rfl

/-- The fields of an override. -/
def overrideFields (o : Override) : Toml.Entries :=
  [("trivial", textsValue o.trivial), ("significant", textsValue o.significant),
    ("extensions", textsValue o.extensions)]

/-- What is set apart from the languages. -/
def ownEntries (s : Settings) : Toml.Entries :=
  (s.format.toList.map fun format => ("format", .text format.name)) ++
    s.select.toList.map fun flag => ("select", .boolean flag)

theorem keys_ownEntries (s : Settings) :
    (s.ownEntries.map Prod.fst).Sublist ["format", "select"] := by
  unfold ownEntries
  cases s.format <;> cases s.select <;> simp

theorem plain_ownEntries (s : Settings) : ∀ e ∈ s.ownEntries, e.2.Plain := by
  unfold ownEntries
  intro e member
  rcases List.mem_append.mp member with own | own
  · obtain ⟨format, _, rfl⟩ := List.mem_map.mp own
    exact .text format.name
  · obtain ⟨flag, _, rfl⟩ := List.mem_map.mp own
    exact .boolean flag

theorem plain_overrideFields (o : Override) : ∀ e ∈ overrideFields o, e.2.Plain := by
  intro e member
  simp only [overrideFields, List.mem_cons, List.not_mem_nil, or_false] at member
  rcases member with rfl | rfl | rfl
  · exact .texts o.trivial
  · exact .texts o.significant
  · exact .texts o.extensions

/-- The layout of the document of some settings. -/
def layout (s : Settings) : Toml.Layout where
  root := s.ownEntries
  title := "languages"
  sections := s.languages.entries.map fun e => (e.1, overrideFields e.2)
  rootPlain := s.plain_ownEntries
  sectionsPlain := by
    intro part member
    obtain ⟨e, _, rfl⟩ := List.mem_map.mp member
    exact plain_overrideFields e.2
  rootKeys := s.keys_ownEntries.nodup (by decide)
  titleFresh := by
    intro member
    have listed : "languages" ∈ ["format", "select"] := s.keys_ownEntries.subset member
    exact absurd listed (by decide)
  sectionKeys := by
    rw [List.map_map]
    exact List.pairwise_map.mpr (s.languages.ascending.imp fun less => String.ne_of_lt less)
  fieldKeys := by
    intro part member
    obtain ⟨e, _, rfl⟩ := List.mem_map.mp member
    exact (by decide : ["trivial", "significant", "extensions"].Nodup)

theorem entries_layout (s : Settings) : s.layout.entries = s.entries := by
  have empty : s.layout.sections.isEmpty = s.languages.isEmpty := List.isEmpty_map
  rw [Toml.Layout.entries, empty, entries]
  congr 1
  split
  · rfl
  · rw [Toml.Layout.tables, layout, List.map_map]
    rfl

/-- The reader and the writer of this library keep every document that holds settings. -/
theorem keeps_standard (s : Settings) : Toml.Codec.standard.Keeps s.entries := by
  refine ⟨Toml.write s.entries, rfl, ?_⟩
  rw [← entries_layout]
  exact s.layout.read?_write

/-- Settings are read back from their text. -/
theorem ofText?_text? {codec : Toml.Codec} {s : Settings} (assumed : codec.RoundTrips s.entries)
    {text : String} (spelt : s.text? codec = some text) : ofText? codec text = some s := by
  rw [ofText?, assumed text spelt]
  exact s.ofEntries?_entries

end Texts

variable {codec : Toml.Codec} {store after : FileStore} {path : RawPath} {settings : Settings}
  {force : Bool}

/-- Settings are read from the text at the path, if there is one, and nothing changes. -/
theorem on_load (codec : Toml.Codec) (store : FileStore) (path : RawPath) :
    (load codec path).on store =
      (if store.contains path then
        match store.readText path with
        | .ok text => ((ofText? codec text).map fun s => .ok (some s)).getD (.error .malformed)
        | .error error => .error (.disk error)
      else .ok none, store) := by
  rw [load, Disk.on_bind, Disk.on_get]
  cases present : store.contains path with
  | false =>
    simp only [present, Bool.not_false, if_true, Disk.on_pure, Bool.false_eq_true, if_false]
  | true =>
    simp only [present, Bool.not_true, Bool.false_eq_true, if_false, if_true]
    rw [Disk.on_bind, Disk.on_mapError, Disk.on_ask]
    cases store.readText path with
    | error error => rfl
    | ok text =>
      simp only [Except.mapError]
      cases ofText? codec text <;> rfl

/-- Settings are written as their text, unless something is in the way and force is not used, or
there is no text, or no file can be written at the path. -/
theorem on_save (codec : Toml.Codec) (store : FileStore) (path : RawPath) (settings : Settings)
    (force : Bool) :
    (save codec path settings force).on store =
      if store.contains path && !force then (.error (.occupied path), store)
      else
        match settings.text? codec, store.target path with
        | none, _ => (.error .unwritable, store)
        | some _, .error error => (.error (.disk error), store)
        | some text, .ok place => (.ok (), store.put place (.file text.toUTF8)) := by
  rw [save, Disk.on_bind, Disk.on_get]
  cases blocked : store.contains path && !force with
  | true => simp only [blocked, if_true, Disk.on_bind, Disk.on_throw]
  | false =>
    simp only [blocked, Bool.false_eq_true, if_false]
    cases settings.text? codec with
    | none => exact Disk.on_throw _ _
    | some text =>
      rw [Disk.on_mapError, FileStore.on_writeText]
      cases store.target path <;> rfl

theorem on_save_occupied (occupied : store.contains path = true) :
    (save codec path settings false).on store = (.error (.occupied path), store) := by
  rw [on_save, occupied]
  rfl

/-- Settings that were written have gone to the path as their text. -/
theorem wrote_of_save (saved : (save codec path settings force).on store = (.ok (), after)) :
    ∃ text, settings.text? codec = some text ∧ store.Wrote path text.toUTF8 after := by
  rw [on_save] at saved
  split at saved
  · cases saved
  · split at saved
    · cases saved
    · cases saved
    · rename_i text place spelt aimed
      cases saved
      exact ⟨text, spelt, FileStore.wrote_put_target aimed text.toUTF8⟩

/-- Settings are loaded from a file that holds their text. -/
theorem on_load_of_find (assumed : codec.RoundTrips settings.entries) {text : String}
    (spelt : settings.text? codec = some text)
    (found : store.find path = .ok (.file text.toUTF8)) :
    (load codec path).on store = (.ok (some settings), store) := by
  have read : store.readText path = .ok text := by
    rw [FileStore.readText_of_find found, FileStore.fromUTF8?_toUTF8]
    rfl
  rw [on_load, if_pos (FileStore.contains_of_find found), read]
  simp only [ofText?_text? assumed spelt, Option.map_some, Option.getD_some]

/-- For any TOML that keeps the document of the settings: where something is at the path, they are
written only by force, and otherwise nothing changes. Settings that were written are loaded again
as they were, and no other place than the one to which the path leads has changed. Where nothing
is, there are no settings, and nothing changes. -/
theorem settings_kept_at_path (codec : Toml.Codec) (store : FileStore) (path : RawPath)
    (settings : Settings) (force : Bool) (assumed : codec.RoundTrips settings.entries) :
    (store.contains path = true → force = false →
      (save codec path settings force).on store = (.error (.occupied path), store)) ∧
    (∀ after, (save codec path settings force).on store = (.ok (), after) →
      (load codec path).on after = (.ok (some settings), after) ∧
      ∃ place, store.Leads path place ∧
        ∀ other, other ≠ place → after.get? other = store.get? other) ∧
    (store.contains path = false → (load codec path).on store = (.ok none, store)) := by
  refine ⟨?_, ?_, ?_⟩
  · rintro occupied rfl
    exact on_save_occupied occupied
  · intro after saved
    obtain ⟨text, spelt, wrote⟩ := wrote_of_save saved
    exact ⟨on_load_of_find assumed spelt wrote.found, wrote.others⟩
  · intro absent
    simp only [on_load, absent, Bool.false_eq_true, if_false]

/-- Settings with a language, keys and texts that need every way of quoting. -/
def awkward : Settings where
  format := some .json
  select := none
  languages := ⟨[("", { trivial := ["it's", "\"quoted\"", "\"\"\"\n", "'''\n\"\"\""] }),
    ("a.b c", {}), ("rust", { significant := ["\x00\t\\"], extensions := ["rs.in"] })],
    by unfold Ascending; decide +kernel⟩

/-- With the reader and the writer of this library they are kept, and not written over. -/
theorem awkward_settings_kept :
    ∃ after, (save .standard "./awkward.toml" awkward false).on {} = (.ok (), after) ∧
      (load .standard "./awkward.toml").on after = (.ok (some awkward), after) ∧
      (save .standard "awkward.toml" initial false).on after =
        (.error (.occupied "awkward.toml"), after) ∧
      (load .standard "awkward.toml").on {} = (.ok none, {}) := by
  have saved : ∃ after, (save .standard "./awkward.toml" awkward false).on {} = (.ok (), after) ∧
      after.contains "awkward.toml" = true := by
    refine ⟨({} : FileStore).put [Text.bytes "awkward.toml"]
      (.file (Toml.write awkward.entries).toUTF8), ?_, ?_⟩
    · rw [on_save]
      rfl
    · rfl
  obtain ⟨after, written, present⟩ := saved
  have assumed (s : Settings) : Toml.Codec.standard.RoundTrips s.entries :=
    s.keeps_standard.roundTrips
  obtain ⟨_, kept, _⟩ :=
    settings_kept_at_path .standard {} "./awkward.toml" awkward false (assumed awkward)
  obtain ⟨refused, _, _⟩ :=
    settings_kept_at_path .standard after "awkward.toml" initial false (assumed initial)
  obtain ⟨_, _, missing⟩ :=
    settings_kept_at_path .standard {} "awkward.toml" initial false (assumed initial)
  exact ⟨after, written, (kept after written).1, refused present rfl, missing (by decide +kernel)⟩

end TreeNav.Settings
