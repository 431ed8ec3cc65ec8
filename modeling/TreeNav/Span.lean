/-!
Half-open byte ranges of a source text (`new`, `caret`, `len`, `is_empty`, `contains`,
`contains_range`). Offsets are byte offsets; a range may be written backwards, in which
case it is empty and has length zero. That an offset fits a machine word is left out.
-/
namespace TreeNav

/-- The bytes from `start` up to, but not including, `stop`. -/
structure Span where
  start : Nat
  stop : Nat
deriving DecidableEq, Repr

namespace Span

/-- The empty range at an offset. -/
def caret (offset : Nat) : Span := ⟨offset, offset⟩

/-- The range between two offsets given in either order. -/
def between (a b : Nat) : Span := ⟨min a b, max a b⟩

/-- The number of bytes; a backward range has none. -/
def length (s : Span) : Nat := s.stop - s.start

/-- No byte lies in the range. -/
def isEmpty (s : Span) : Bool := s.stop ≤ s.start

/-- The byte at `offset` lies in the range. -/
def contains (s : Span) (offset : Nat) : Bool := s.start ≤ offset && offset < s.stop

/-- Both ends of `inner` lie between the ends of `s`. This compares ends only, so
a backward range can be covered although it holds no byte. -/
def covers (s inner : Span) : Bool := s.start ≤ inner.start && inner.stop ≤ s.stop

/-- The two ends with two dots between them. -/
def text (s : Span) : String := s.start.repr ++ ".." ++ s.stop.repr

@[simp] theorem covers_refl (s : Span) : s.covers s = true := by
  simp [covers]

theorem covers_iff (s inner : Span) :
    s.covers inner = true ↔ s.start ≤ inner.start ∧ inner.stop ≤ s.stop := by
  simp [covers]

theorem contains_iff (s : Span) (offset : Nat) :
    s.contains offset = true ↔ s.start ≤ offset ∧ offset < s.stop := by
  simp [contains]

theorem isEmpty_iff (s : Span) : s.isEmpty = true ↔ s.stop ≤ s.start := by
  simp [isEmpty]

theorem isEmpty_eq_false_iff (s : Span) : s.isEmpty = false ↔ s.start < s.stop := by
  simp [isEmpty]

theorem covers_trans {a b c : Span} (outer : a.covers b = true) (inner : b.covers c = true) :
    a.covers c = true := by
  rw [covers_iff] at *
  omega

end Span

end TreeNav
