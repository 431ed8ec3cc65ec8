import TreeNav.Text.Lowercase

/-!
Where the full lower case of a text agrees with the lower case of its ASCII letters. Of the
characters outside ASCII, only the Kelvin sign is lowered to nothing but ASCII, to the letter
`k`. A name in lower-case ASCII without that letter is therefore the full lower case of exactly
the texts that spell it in ASCII letters of either case. And as nothing is lowered to the Kelvin
sign, what was lowered once spells a name in ASCII only if it is that name.
-/
namespace TreeNav.Text

/-- The Kelvin sign, which looks like a capital K. -/
def kelvin : Char := '\u212A'

/-- The run of the Kelvin sign. -/
def kelvinRun : CaseRun := ⟨0x212A, 0x212A, 1, 0x6B⟩

/-- Past ASCII, all runs but one lead to characters past ASCII. The bounds on the targets say
that they are code points of characters. -/
theorem caseRuns_targets : ∀ run ∈ caseRuns, run.last < 128 ∨ run = kelvinRun ∨
    128 ≤ run.target ∧ (run.target + (run.last - run.first) < 0xD800 ∨
      0xDFFF < run.target ∧ run.target + (run.last - run.first) < 0x110000) := by
  decide +kernel

/-- No run leads to the Kelvin sign. -/
theorem caseRuns_avoid_kelvin : ∀ run ∈ caseRuns,
    run.target + (run.last - run.first) < kelvin.toNat ∨ kelvin.toNat < run.target := by
  decide +kernel

theorem toNat_ofNat {code : Nat} (valid : code.isValidChar) : (Char.ofNat code).toNat = code := by
  rw [Char.ofNat, dif_pos valid]
  rfl

theorem toLower_of_beyond {c : Char} (beyond : 128 ≤ c.toNat) : c.toLower = c := by
  have noCapital : ¬(c.val ≥ 'A'.val ∧ c.val ≤ 'Z'.val) := by
    rintro ⟨_, upto⟩
    exact Nat.not_lt.mpr beyond
      (Nat.lt_of_le_of_lt (UInt32.le_iff_toNat_le.mp upto) (by decide))
  exact dif_neg noCapital

/-- The ways to lower a character past ASCII. -/
theorem lowerChar_cases {c : Char} (beyond : 128 ≤ c.toNat) :
    c = 'İ' ∧ lowerChar c = ['i', '\u0307'] ∨
    c = kelvin ∧ lowerChar c = ['k'] ∨
    ∃ low, lowerChar c = [low] ∧ 128 ≤ low.toNat ∧ low ≠ kelvin := by
  rw [lowerChar, if_neg (Nat.not_lt.mpr beyond)]
  split
  · rename_i dotted
    exact .inl ⟨dotted, rfl⟩
  · refine .inr ?_
    split
    · rename_i run found
      have member := List.mem_of_find?_eq_some found
      have held := List.find?_some found
      simp only [CaseRun.holds, Bool.and_eq_true, decide_eq_true_eq] at held
      rcases caseRuns_targets run member with within | rfl | ⟨past, valid⟩
      · omega
      · have code : c.toNat = kelvin.toNat := Nat.le_antisymm held.1.2 held.1.1
        refine .inl ⟨Char.toNat_inj.mp code, ?_⟩
        rw [code]
        rfl
      · have image : (run.map c.toNat).isValidChar := by
          unfold CaseRun.map Nat.isValidChar
          omega
        have avoids := caseRuns_avoid_kelvin run member
        refine .inr ⟨_, rfl, ?_, ?_⟩
        · rw [toNat_ofNat image]
          exact Nat.le_trans past (Nat.le_add_right ..)
        · rw [Ne, ← Char.toNat_inj, toNat_ofNat image]
          unfold CaseRun.map
          omega
    · rename_i unmapped
      refine .inr ⟨c, rfl, beyond, ?_⟩
      rintro rfl
      revert unmapped
      decide +kernel

theorem lowerAfter_of_ascii {text : List Char} (ascii : ∀ c ∈ text, c.toNat < 128)
    (before : List Char) : lowerAfter before text = text.map Char.toLower := by
  induction text generalizing before with
  | nil => rfl
  | cons c rest ih =>
    have first := ascii c List.mem_cons_self
    have noSigma : c ≠ 'Σ' := by
      rintro rfl
      revert first
      decide
    rw [lowerAfter, if_neg noSigma, lowerChar_of_ascii first,
      ih fun d further => ascii d (List.mem_cons_of_mem _ further)]
    rfl

/-- A text whose full lower case is in ASCII holds nothing past ASCII but Kelvin signs, and
these become `k`. -/
theorem ascii_or_kelvin_of_lowerAfter {text before : List Char}
    (lowered : ∀ c ∈ lowerAfter before text, c.toNat < 128) :
    ∀ c ∈ text, c.toNat < 128 ∨ c = kelvin ∧ 'k' ∈ lowerAfter before text := by
  induction text generalizing before with
  | nil => intro c member; cases member
  | cons c rest ih =>
    rw [lowerAfter] at lowered ⊢
    have ends := fun low member => lowered low (List.mem_append_left _ member)
    have later := ih fun low member => lowered low (List.mem_append_right _ member)
    intro d member
    rcases List.mem_cons.mp member with rfl | further
    · refine (Nat.lt_or_ge d.toNat 128).imp_right fun beyond => ?_
      -- A capital sigma is lowered past ASCII in either form; the rest is `lowerChar`.
      split at ends
      · split at ends
        · exact absurd (ends 'ς' (by simp)) (by decide)
        · exact absurd (ends 'σ' (by simp)) (by decide)
      · rename_i noSigma
        rw [if_neg noSigma]
        rcases lowerChar_cases beyond with ⟨-, low⟩ | ⟨same, low⟩ | ⟨low, only, past, -⟩
        · exact absurd (ends '\u0307' (by simp [low])) (by decide)
        · exact ⟨same, by simp [low]⟩
        · exact absurd (ends low (by simp [only])) (Nat.not_lt.mpr past)
    · exact (later d further).imp_right (And.imp_right (List.mem_append_right _))

theorem ascii_of_toLower {c : Char} (ascii : c.toLower.toNat < 128) : c.toNat < 128 := by
  refine Decidable.byContradiction fun past => ?_
  exact past (toLower_of_beyond (Nat.not_lt.mp past) ▸ ascii)

/-- The character is neither a capital of ASCII nor the Kelvin sign. -/
def IsLow (c : Char) : Prop := c.toLower = c ∧ c ≠ kelvin

instance (c : Char) : Decidable (IsLow c) :=
  inferInstanceAs (Decidable (c.toLower = c ∧ c ≠ kelvin))

theorem isLow_toLower : ∀ code < 128, IsLow (Char.ofNat code).toLower := by
  decide +kernel

theorem isLow_lowerChar {c low : Char} (member : low ∈ lowerChar c) : IsLow low := by
  rcases Nat.lt_or_ge c.toNat 128 with ascii | beyond
  · rw [lowerChar_of_ascii ascii, List.mem_singleton] at member
    rw [member, ← Char.ofNat_toNat c]
    exact isLow_toLower c.toNat ascii
  · rcases lowerChar_cases beyond with ⟨-, all⟩ | ⟨-, all⟩ | ⟨only, all, past, other⟩
    · rw [all, List.mem_cons, List.mem_singleton] at member
      rcases member with rfl | rfl <;> decide
    · rw [all, List.mem_singleton] at member
      rw [member]
      decide
    · rw [all, List.mem_singleton] at member
      exact member ▸ ⟨toLower_of_beyond past, other⟩

/-- What was lowered has no capital of ASCII and no Kelvin sign. -/
theorem isLow_lowerAfter {text before : List Char} :
    ∀ low ∈ lowerAfter before text, IsLow low := by
  induction text generalizing before with
  | nil => intro low member; cases member
  | cons c rest ih =>
    intro low member
    rw [lowerAfter] at member
    rcases List.mem_append.mp member with first | further
    · split at first
      · split at first
        · rw [List.mem_singleton.mp first]
          decide
        · rw [List.mem_singleton.mp first]
          decide
      · exact isLow_lowerChar first
    · exact ih low further

/-- Where lower case has been at work, lowering once more gives a name in ASCII only if the name was
there already. -/
theorem lowercase_of_low {text : String} (low : ∀ c ∈ text.toList, IsLow c)
    (ascii : (∀ c ∈ text.toList, c.toNat < 128) ∨ ∀ c ∈ (lowercase text).toList, c.toNat < 128) :
    lowercase text = text := by
  have plain : ∀ c ∈ text.toList, c.toNat < 128 := by
    rcases ascii with ascii | lowered
    · exact ascii
    · intro c member
      rw [lowercase, String.toList_ofList] at lowered
      exact (ascii_or_kelvin_of_lowerAfter lowered c member).resolve_right fun sign =>
        (low c member).2 sign.1
  rw [← String.toList_inj, lowercase, String.toList_ofList, lowerAfter_of_ascii plain,
    List.map_congr_left fun c member => (low c member).1, List.map_id']

/-- A name in lower-case ASCII letters other than `k`. -/
def IsPlainName (name : String) : Prop :=
  ∀ c ∈ name.toList, c.toNat < 128 ∧ c ≠ 'k' ∧ c.toLower = c

instance (name : String) : Decidable (IsPlainName name) :=
  List.decidableBAll (fun c : Char => c.toNat < 128 ∧ c ≠ 'k' ∧ c.toLower = c) name.toList

theorem IsPlainName.map_toLower {name : String} (plain : IsPlainName name) :
    name.toList.map Char.toLower = name.toList := by
  rw [List.map_congr_left fun c member => (plain c member).2.2, List.map_id']

/-- Full lower case finds a plain name where the case of ASCII letters does. -/
theorem IsPlainName.lowercase_eq_iff {name : String} (plain : IsPlainName name) (text : String) :
    lowercase text = name ↔ sameIgnoringAsciiCase text name = true := by
  rw [sameIgnoringAsciiCase, plain.map_toLower, beq_iff_eq, lowercase, ← String.toList_inj,
    String.toList_ofList]
  constructor
  · intro same
    have ascii : ∀ c ∈ text.toList, c.toNat < 128 := by
      intro c member
      have lowered := fun low member => (plain low (same ▸ member)).1
      rcases ascii_or_kelvin_of_lowerAfter lowered c member with ascii | ⟨-, letter⟩
      · exact ascii
      · exact absurd rfl (plain 'k' (same ▸ letter)).2.1
    rw [← lowerAfter_of_ascii ascii []]
    exact same
  · intro same
    have ascii : ∀ c ∈ text.toList, c.toNat < 128 := fun c member =>
      ascii_of_toLower (plain _ (same ▸ List.mem_map_of_mem member)).1
    rw [lowerAfter_of_ascii ascii]
    exact same

end TreeNav.Text
