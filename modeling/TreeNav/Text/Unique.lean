/-!
Lists of texts without repetition: appending a text that is not there yet (`push_unique`).
-/
namespace TreeNav.Text

variable {texts added : List String} {text other : String}

/-- Appends a text unless it is there already. -/
def pushUnique (texts : List String) (text : String) : List String :=
  if texts.contains text then texts else texts ++ [text]

theorem mem_pushUnique : other ∈ pushUnique texts text ↔ other ∈ texts ∨ other = text := by
  unfold pushUnique
  split
  · rename_i known
    have present : text ∈ texts := List.contains_iff_mem.mp known
    constructor
    · exact .inl
    · rintro (member | rfl)
      · exact member
      · exact present
  · simp

theorem eraseDups_of_nodup (distinct : texts.Nodup) : texts.eraseDups = texts := by
  induction texts with
  | nil => rfl
  | cons first rest ih =>
    obtain ⟨fresh, tail⟩ := List.nodup_cons.mp distinct
    have kept : rest.filter (fun text => !text == first) = rest :=
      List.filter_eq_self.mpr fun text member => by
        have other : text ≠ first := fun same => fresh (same ▸ member)
        simpa using other
    rw [List.eraseDups_cons, kept, ih tail]

/-- Texts appended one by one, each only if it is new. -/
theorem foldl_pushUnique (distinct : texts.Nodup) (added : List String) :
    added.foldl pushUnique texts = (texts ++ added).eraseDups ∧
      (added.foldl pushUnique texts).Nodup := by
  induction added generalizing texts with
  | nil => simp [eraseDups_of_nodup distinct, distinct]
  | cons first rest ih =>
    rw [List.foldl_cons]
    by_cases known : first ∈ texts
    · have same : pushUnique texts first = texts := by simp [pushUnique, known]
      have passed : (first :: rest).removeAll texts = rest.removeAll texts := by
        simp [List.removeAll, known]
      rw [same, List.eraseDups_append, passed, ← List.eraseDups_append]
      exact ih distinct
    · have longer : pushUnique texts first = texts ++ [first] := by simp [pushUnique, known]
      have still : (texts ++ [first]).Nodup := by
        simpa [List.nodup_append] using ⟨distinct, fun text member same => known (same ▸ member)⟩
      rw [longer, List.append_cons texts first rest]
      exact ih still

theorem nodup_pushUnique (distinct : texts.Nodup) (text : String) : (pushUnique texts text).Nodup :=
  (foldl_pushUnique distinct [text]).2

/-- Texts that are all there already are not appended again. -/
theorem foldl_pushUnique_of_known (known : ∀ text ∈ added, text ∈ texts) :
    added.foldl pushUnique texts = texts := by
  induction added with
  | nil => rfl
  | cons first rest ih =>
    have present : pushUnique texts first = texts := by
      simp [pushUnique, known first List.mem_cons_self]
    rw [List.foldl_cons, present]
    exact ih fun text member => known text (List.mem_cons_of_mem _ member)

theorem mem_foldl_pushUnique :
    text ∈ added.foldl pushUnique texts ↔ text ∈ texts ∨ text ∈ added := by
  induction added generalizing texts with
  | nil => simp
  | cons first rest ih => rw [List.foldl_cons, ih, mem_pushUnique, List.mem_cons, or_assoc]

end TreeNav.Text
