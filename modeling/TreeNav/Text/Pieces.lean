/-!
Texts, given as their characters or their bytes, cut at every occurrence of a mark.
-/
namespace TreeNav.Text

variable {α : Type} [DecidableEq α]

/-- The pieces between the marks. There is one more of them than there are marks. -/
def pieces (mark : α) : List α → List (List α)
  | [] => [[]]
  | c :: rest =>
    if c = mark then [] :: pieces mark rest
    else
      match pieces mark rest with
      | [] => [[c]]
      | piece :: others => (c :: piece) :: others

theorem length_pieces (mark : α) (text : List α) :
    (pieces mark text).length = text.count mark + 1 := by
  induction text with
  | nil => rfl
  | cons c rest ih =>
    by_cases marked : c = mark
    · simp [pieces, marked, ih]
    · cases found : pieces mark rest with
      | nil => simp [found] at ih
      | cons piece others => simpa [pieces, marked, found] using ih

theorem mark_not_mem_of_mem_pieces {mark : α} {text piece : List α}
    (member : piece ∈ pieces mark text) : mark ∉ piece := by
  induction text generalizing piece with
  | nil => simp_all [pieces]
  | cons c rest ih =>
    by_cases marked : c = mark
    · rcases (by simpa [pieces, marked] using member : piece = [] ∨ piece ∈ pieces mark rest) with
        same | further
      · simp [same]
      · exact ih further
    · cases found : pieces mark rest with
      | nil => simp_all [pieces, Ne.symm marked]
      | cons first others =>
        rcases (by simpa [pieces, marked, found] using member :
          piece = c :: first ∨ piece ∈ others) with same | further
        · have tail := ih (found ▸ List.mem_cons_self : first ∈ pieces mark rest)
          simp [same, tail, Ne.symm marked]
        · exact ih (found ▸ List.mem_cons_of_mem _ further)

theorem exists_pieces_eq_cons (mark : α) (text : List α) :
    ∃ piece others, pieces mark text = piece :: others := by
  cases found : pieces mark text with
  | nil => simpa [found] using length_pieces mark text
  | cons piece others => exact ⟨piece, others, rfl⟩

/-- A text without marks is one piece. -/
theorem pieces_of_not_mem {mark : α} {text : List α} (absent : mark ∉ text) :
    pieces mark text = [text] := by
  induction text with
  | nil => rfl
  | cons c rest ih =>
    have other : c ≠ mark := fun same => absent (same ▸ List.mem_cons_self)
    rw [pieces, if_neg other, ih fun later => absent (List.mem_cons_of_mem _ later)]

/-- The pieces before a mark and those after it. -/
theorem pieces_append (mark : α) (front back : List α) :
    pieces mark (front ++ mark :: back) = pieces mark front ++ pieces mark back := by
  induction front with
  | nil => exact if_pos rfl
  | cons c rest ih =>
    obtain ⟨piece, others, found⟩ := exists_pieces_eq_cons mark rest
    rw [List.cons_append, pieces, pieces, ih, found]
    split <;> rfl

/-- The pieces with the marks between them are the text. -/
theorem eq_of_pieces_eq_cons {mark : α} {text piece : List α} {others : List (List α)}
    (cut : pieces mark text = piece :: others) : text = piece ++ others.flatMap (mark :: ·) := by
  induction text generalizing piece others with
  | nil =>
    cases cut
    rfl
  | cons c rest ih =>
    obtain ⟨first, further, found⟩ := exists_pieces_eq_cons mark rest
    rw [pieces, found] at cut
    rw [ih found]
    split at cut
    · rename_i marked
      cases cut
      rw [marked]
      rfl
    · cases cut
      rfl

end TreeNav.Text
