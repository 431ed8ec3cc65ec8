import TreeNav.FileStore

/-!
Writing a file where a path leads to. A walk goes through directories alone and never leaves
them unlisted, so a path that ends in a slash or in dots leads to a directory and is refused. A
file that was written is found again by the same path, and nothing else changes.
-/
namespace TreeNav.FileStore

open FileName (dot up)

variable {store : FileStore} {path : RawPath} {here place : Place} {names : List (List UInt8)}
  {name : List UInt8} {content : ByteArray}

theorem get?_of_outside (outside : isOutside place = true) :
    store.get? place = some .directory := by
  simp [get?, outside]

/-- Everything on the way to a place is a directory. -/
def Rooted (store : FileStore) (place : Place) : Prop :=
  ∀ front, front <+: place → front ≠ place → store.get? front = some .directory

theorem Rooted.concat (rooted : store.Rooted here) (inside : store.get? here = some .directory)
    (name : List UInt8) : store.Rooted (here ++ [name]) := by
  intro front within different
  rcases List.prefix_concat_iff.mp within with whole | shorter
  · exact absurd whole different
  · by_cases same : front = here
    · rw [same]
      exact inside
    · exact rooted front shorter same

theorem Rooted.dropLast (rooted : store.Rooted here) : store.Rooted here.dropLast := by
  intro front within different
  refine rooted front (within.trans (List.dropLast_prefix here)) ?_
  rintro rfl
  exact different (List.IsPrefix.eq_of_length_le within (by simp))

theorem Rooted.step (rooted : store.Rooted here) (inside : store.get? here = some .directory)
    (name : List UInt8) : store.Rooted (step here name) := by
  unfold FileStore.step
  split
  · exact rooted
  split
  · exact rooted.concat inside name
  split
  · exact rooted
  split
  · exact rooted.concat inside up
  · exact rooted.dropLast

/-- Dots lead from a directory to a directory. -/
theorem get?_step_dots (rooted : store.Rooted here) (inside : store.get? here = some .directory)
    (dots : name = [dot] ∨ name = up) : store.get? (step here name) = some .directory := by
  rcases dots with rfl | rfl
  · exact inside
  · unfold FileStore.step
    rw [if_neg (by decide), if_neg (by decide)]
    split
    · exact inside
    split
    · rename_i outside
      exact get?_of_outside (by simp [isOutside, List.all_append, outside])
    · rename_i _ named
      have filled : here ≠ [] := by
        rintro rfl
        exact named rfl
      refine rooted _ (List.dropLast_prefix here) fun same => ?_
      have shorter := congrArg List.length same
      have positive := List.length_pos_iff.mpr filled
      rw [List.length_dropLast] at shorter
      omega

theorem walk_cons (walked : store.walk here (name :: names) = .ok place) :
    store.get? here = some .directory ∧ store.walk (step here name) names = .ok place := by
  rw [walk] at walked
  split at walked
  · rename_i inside
    split at walked
    · cases walked
    · exact ⟨inside, walked⟩
  · cases walked
  · cases walked

/-- The last step of a walk. -/
theorem walk_concat (rooted : store.Rooted here)
    (walked : store.walk here (names ++ [name]) = .ok place) :
    ∃ last, store.Rooted last ∧ store.get? last = some .directory ∧ place = step last name := by
  induction names generalizing here with
  | nil =>
    obtain ⟨inside, arrived⟩ := walk_cons walked
    cases arrived
    exact ⟨here, rooted, inside, rfl⟩
  | cons first rest ih =>
    obtain ⟨inside, further⟩ := walk_cons walked
    exact ih (rooted.step inside first) further

/-- A walk that does not end in a name of its own ends at a directory. -/
theorem get?_of_unnamed {r : Route} (rooted : store.Rooted r.start)
    (outside : isOutside r.start = true) (unnamed : r.isNamed = false)
    (walked : store.walk r.start r.names = .ok place) : store.get? place = some .directory := by
  rcases List.eq_nil_or_concat r.names with none | ⟨front, last, names⟩
  · rw [none] at walked
    cases walked
    exact get?_of_outside outside
  · rw [List.concat_eq_append] at names
    rw [names] at walked
    obtain ⟨_, around, inside, rfl⟩ := walk_concat rooted walked
    have dots : last = [dot] ∨ last = up := by
      simpa [Route.isNamed, names, ← Decidable.or_iff_not_imp_left] using unnamed
    exact get?_step_dots around inside dots

/-- A route starts at the working directory or at the top. -/
theorem start_of_route {r : Route} (parsed : route path = .ok r) :
    r.start = [] ∨ r.start = [top] := by
  unfold route at parsed
  dsimp only at parsed
  split at parsed
  · cases parsed
  split at parsed
  · cases parsed
  split at parsed
  · cases parsed
  · cases parsed
    dsimp only
    split
    · exact .inr rfl
    · exact .inl rfl

theorem rooted_start {r : Route} (start : r.start = [] ∨ r.start = [top]) (store : FileStore) :
    isOutside r.start = true ∧ store.Rooted r.start := by
  have here : store.Rooted [] := fun front within different =>
    absurd (List.prefix_nil.mp within) different
  rcases start with start | start
  · rw [start]
    exact ⟨rfl, here⟩
  · rw [start]
    exact ⟨rfl, here.concat rfl top⟩

/-- The path leads to the place. -/
def Leads (store : FileStore) (path : RawPath) (place : Place) : Prop :=
  ∃ r, route path = .ok r ∧ store.walk r.start r.names = .ok place

/-- A file that is put where no directory is stands in nobody's way. -/
theorem walk_put (free : store.get? place ≠ some .directory) (entry : DiskEntry) {target : Place}
    (walked : store.walk here names = .ok target) :
    (store.put place entry).walk here names = .ok target := by
  induction names generalizing here with
  | nil => exact walked
  | cons name rest ih =>
    -- The walk goes on from here, so there is a directory here and none at the place.
    have different : here ≠ place := by
      rintro rfl
      exact free (walk_cons walked).1
    rw [walk, get?_put_ne store entry different]
    rw [walk] at walked
    split at walked
    · split at walked
      · cases walked
      · rename_i fits
        rw [if_neg fits]
        exact ih walked
    · cases walked
    · cases walked

/-- A text can be written where the path leads to, in place of a file or of nothing, and then
there is no slash after the path. -/
theorem target_eq_ok (aimed : store.target path = .ok place) :
    ∃ r, route path = .ok r ∧ r.slashed = false ∧ store.walk r.start r.names = .ok place ∧
      store.get? place ≠ some .directory := by
  unfold target at aimed
  cases parsed : route path with
  | error fault =>
    rw [parsed] at aimed
    cases aimed
  | ok r =>
    obtain ⟨outside, rooted⟩ := rooted_start (start_of_route parsed) store
    rw [parsed] at aimed
    simp only [bind, Except.bind] at aimed
    cases slash : r.slashed && r.isNamed with
    | true =>
      simp only [slash, if_true] at aimed
      split at aimed <;> cases aimed
    | false =>
      simp only [slash] at aimed
      cases walked : store.walk r.start r.names with
      | error fault => simp [walked] at aimed
      | ok arrived =>
        simp only [walked, Bool.false_eq_true, if_false] at aimed
        split at aimed
        · cases aimed
        · rename_i free
          cases aimed
          -- A slash after dots, or after nothing, would have led to a directory.
          have unslashed : r.slashed = false := by
            refine Bool.eq_false_iff.mpr fun slashed => free ?_
            rw [slashed, Bool.true_and] at slash
            exact get?_of_unnamed rooted outside slash walked
          exact ⟨r, rfl, unslashed, walked, free⟩

/-- A file is written where the path can be written to; otherwise nothing changes. -/
theorem on_writeText (store : FileStore) (path : RawPath) (text : String) :
    (writeText path text).on store =
      match store.target path with
      | .ok place => (.ok (), store.put place (.file text.toUTF8))
      | .error error => (.error error, store) := by
  have created : (create path).on store =
      match store.target path with
      | .ok place => (.ok place, store.put place (.file .empty))
      | .error error => (.error error, store) := by
    rw [create, Disk.on_bind, Disk.on_ask]
    cases store.target path with
    | error error => rfl
    | ok place => simp only [Disk.on_bind, Disk.on_modify, Disk.on_pure]
  rw [writeText, Disk.on_bind, created]
  cases store.target path with
  | error error => rfl
  | ok place => simp only [Disk.on_modify, put_put]

/-- A file that was written is found by the path by which it was written. -/
theorem find_put_target (aimed : store.target path = .ok place) (content : ByteArray) :
    (store.put place (.file content)).find path = .ok (.file content) := by
  obtain ⟨r, parsed, unslashed, walked, free⟩ := target_eq_ok aimed
  have listed : isOutside place = false :=
    Bool.eq_false_iff.mpr fun outside => free (get?_of_outside outside)
  unfold find
  rw [parsed]
  simp only [bind, Except.bind]
  rw [walk_put free _ walked]
  simp only [get?_put_self store _ listed, unslashed]
  rfl

/-- The store after a write: nothing but the place to which the path leads has changed. -/
structure Wrote (store : FileStore) (path : RawPath) (content : ByteArray) (after : FileStore) :
    Prop where
  found : after.find path = .ok (.file content)
  others : ∃ place, store.Leads path place ∧
    ∀ other, other ≠ place → after.get? other = store.get? other

theorem wrote_put_target (aimed : store.target path = .ok place) (content : ByteArray) :
    store.Wrote path content (store.put place (.file content)) where
  found := find_put_target aimed content
  others := by
    obtain ⟨r, parsed, _, walked, _⟩ := target_eq_ok aimed
    exact ⟨place, ⟨r, parsed, walked⟩, fun _ different => get?_put_ne store _ different⟩

theorem contains_of_find {entry : DiskEntry} (found : store.find path = .ok entry) :
    store.contains path = true := by
  rw [contains, found]
  rfl

/-- A file is read as the text that its bytes spell. -/
theorem readText_of_find (found : store.find path = .ok (.file content)) :
    store.readText path =
      ((String.fromUTF8? content).map Except.ok).getD (.error .notText) := by
  unfold readText
  rw [found]
  simp only [bind, Except.bind]
  cases String.fromUTF8? content <;> rfl

theorem fromUTF8?_toUTF8 (text : String) : String.fromUTF8? text.toUTF8 = some text :=
  dif_pos text.isValidUTF8

/-- What a path finds a file by. -/
theorem find_eq_file (found : store.find path = .ok (.file content)) :
    ∃ r place, route path = .ok r ∧ r.slashed = false ∧ store.walk r.start r.names = .ok place ∧
      store.get? place = some (.file content) := by
  unfold find at found
  cases parsed : route path with
  | error fault =>
    rw [parsed] at found
    cases found
  | ok r =>
    rw [parsed] at found
    simp only [bind, Except.bind] at found
    cases walked : store.walk r.start r.names with
    | error fault => simp [walked] at found
    | ok place =>
      simp only [walked] at found
      split at found
      · cases found
      · cases found
      · rename_i held
        split at found
        · cases found
        · rename_i unslashed
          cases found
          exact ⟨r, place, rfl, Bool.eq_false_iff.mpr unslashed, walked, held⟩

/-- A file can be written where a file is found. -/
theorem exists_target_of_find (found : store.find path = .ok (.file content)) :
    ∃ place, store.target path = .ok place := by
  obtain ⟨r, place, parsed, unslashed, walked, held⟩ := find_eq_file found
  refine ⟨place, ?_⟩
  unfold target
  rw [parsed]
  simp only [bind, Except.bind, unslashed, Bool.false_and, Bool.false_eq_true, if_false, walked,
    held]
  rfl

end TreeNav.FileStore
