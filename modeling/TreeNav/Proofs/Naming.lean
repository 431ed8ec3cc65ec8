import TreeNav.Motion
import TreeNav.Proofs.LetterCase

/-!
Names of motions. A name in normal form is a name of its own, or a beginning that makes a jump and
after it a name of a category. The category is read by lowering what is cut out of the normal form
once more; that finds no names which are not there already, so both are read by one grammar.
-/
namespace TreeNav

/-- In a list that has every key once, looking a key up finds the entries that are there. -/
theorem lookup_eq_some_iff_mem {α : Type} {entries : List (String × α)}
    (distinct : (entries.map Prod.fst).Nodup) {key : String} {value : α} :
    entries.lookup key = some value ↔ (key, value) ∈ entries := by
  induction entries with
  | nil => simp
  | cons first rest ih =>
    obtain ⟨own, held⟩ := first
    obtain ⟨fresh, tail⟩ := List.nodup_cons.mp distinct
    rw [List.lookup_cons, List.mem_cons, Prod.mk.injEq]
    by_cases same : key = own
    · subst same
      have absent : (key, value) ∉ rest := fun member =>
        fresh (List.mem_map.mpr ⟨_, member, rfl⟩)
      simp [absent, eq_comm]
    · have miss : (key == own) = false := beq_false_of_ne same
      simp [miss, same, ih tail]

theorem lookup_eq_none_iff_not_mem {α : Type} {entries : List (String × α)} {key : String} :
    entries.lookup key = none ↔ key ∉ entries.map Prod.fst := by
  rw [List.lookup_eq_none_iff]
  simp only [bne_iff_ne, List.mem_map, not_exists, not_and]
  constructor
  · intro differs entry member same
    exact differs entry member same.symm
  · intro absent entry member same
    exact absent entry member same.symm

/-- A text of ASCII that has no capital and no underscore. -/
def isPlain (text : String) : Bool :=
  text.toList.all fun c => c.toNat < 128 && c.toLower == c && c != '_'

theorem isPlain_iff {text : String} : isPlain text = true ↔
    ∀ c ∈ text.toList, c.toNat < 128 ∧ c.toLower = c ∧ c ≠ '_' := by
  simp [isPlain, and_assoc]

theorem ascii_of_isPlain {text : String} (plain : isPlain text = true) :
    ∀ c ∈ text.toList, c.toNat < 128 := by
  intro c member
  exact (isPlain_iff.mp plain c member).1

theorem isPlain_append {a b : String} : isPlain (a ++ b) = (isPlain a && isPlain b) := by
  rw [isPlain, String.toList_append, List.all_append]
  rfl

namespace Category

theorem nodup_spellings : (spellings.map Prod.fst).Nodup := by
  decide +kernel

theorem spellings_plain : ∀ entry ∈ spellings, isPlain entry.1 = true := by
  decide +kernel

theorem name_mem_spellings (category : Category) : (category.name, category) ∈ spellings := by
  cases category <;> decide +kernel

/-- A text names a category if its lower case is one of the spellings. -/
theorem parse_eq_ok_iff {text : String} {category : Category} :
    parse text = .ok category ↔ (Text.lowercase text, category) ∈ spellings := by
  rw [← lookup_eq_some_iff_mem nodup_spellings, parse]
  split
  · rename_i found
    rw [found, Except.ok.injEq, Option.some.injEq]
  · rename_i missing
    simp [missing]

/-- Of the texts that were lowered before, only the spellings name a category. -/
theorem parse_eq_ok_iff_of_low {text : String} (low : ∀ c ∈ text.toList, Text.IsLow c)
    {category : Category} : parse text = .ok category ↔ (text, category) ∈ spellings := by
  rw [parse_eq_ok_iff]
  constructor
  · intro member
    have ascii := ascii_of_isPlain (spellings_plain _ member)
    rwa [Text.lowercase_of_low low (.inr ascii)] at member
  · intro member
    have ascii := ascii_of_isPlain (spellings_plain _ member)
    rwa [Text.lowercase_of_low low (.inl ascii)]

end Category

namespace Motion

theorem nodup_spellings : (spellings.map Prod.fst).Nodup := by
  decide +kernel

theorem without?_eq_some_iff {beginning text rest : String} :
    without? beginning text = some rest ↔ text = beginning ++ rest := by
  have texts : text = beginning ++ rest ↔ text.toList = beginning.toList ++ rest.toList := by
    rw [← String.toList_append, String.toList_inj]
  rw [texts, without?]
  split
  · rename_i begins
    obtain ⟨others, whole⟩ := List.isPrefixOf_iff_prefix.mp begins
    rw [← whole, ← String.length_toList, List.drop_left, Option.some.injEq,
      List.append_cancel_left_eq, ← String.toList_inj, String.toList_ofList]
  · rename_i differs
    simp only [reduceCtorEq, false_iff]
    intro whole
    exact differs (List.isPrefixOf_iff_prefix.mpr ⟨rest.toList, whole.symm⟩)

theorem nodup_jumps : (jumps.map Prod.fst).Nodup := by
  decide +kernel

/-- No beginning of a jump begins another. -/
theorem beginnings_apart : ∀ a ∈ jumps.map Prod.fst, ∀ b ∈ jumps.map Prod.fst,
    a.toList <+: b.toList → a = b := by
  decide +kernel

theorem jump?_sound {normal rest : String} {make : Category → Motion}
    (found : jump? normal = some (make, rest)) :
    ∃ beginning, (beginning, make) ∈ jumps ∧ normal = beginning ++ rest := by
  obtain ⟨⟨beginning, own⟩, member, cut⟩ := List.exists_of_findSome?_eq_some found
  obtain ⟨left, whole, same⟩ := Option.map_eq_some_iff.mp cut
  rw [Prod.mk.injEq] at same
  obtain ⟨rfl, rfl⟩ := same
  exact ⟨beginning, member, without?_eq_some_iff.mp whole⟩

/-- A text begins with one sort of jump at most. -/
theorem jump?_complete {beginning rest : String} {make : Category → Motion}
    (member : (beginning, make) ∈ jumps) : jump? (beginning ++ rest) = some (make, rest) := by
  have cuts : (jump? (beginning ++ rest)).isSome := by
    refine List.findSome?_isSome_iff.mpr ⟨_, member, ?_⟩
    rw [Option.isSome_map, without?_eq_some_iff.mpr rfl]
    rfl
  obtain ⟨⟨own, left⟩, found⟩ := Option.isSome_iff_exists.mp cuts
  obtain ⟨other, listed, whole⟩ := jump?_sound found
  have texts := congrArg String.toList whole
  rw [String.toList_append, String.toList_append] at texts
  have keys := List.mem_map_of_mem (f := Prod.fst) member
  have keys' := List.mem_map_of_mem (f := Prod.fst) listed
  -- Two beginnings of one text: the shorter begins the longer.
  have same : other = beginning := by
    rcases List.prefix_or_prefix_of_prefix (List.prefix_append other.toList left.toList)
      (texts ▸ List.prefix_append beginning.toList rest.toList) with shorter | longer
    · exact beginnings_apart other keys' beginning keys shorter
    · exact (beginnings_apart beginning keys other keys' longer).symm
  subst same
  have makes : own = make := by
    have first := (lookup_eq_some_iff_mem nodup_jumps).mpr listed
    rw [(lookup_eq_some_iff_mem nodup_jumps).mpr member, Option.some.injEq] at first
    exact first.symm
  rw [List.append_cancel_left_eq, String.toList_inj] at texts
  rw [found, makes, texts]

/-- The motion that a name in normal form denotes: a name of its own denotes its motion, and
otherwise a beginning and the name of a category denote a jump. -/
inductive Denotes : String → Motion → Prop
  | plain {normal : String} {motion : Motion} (listed : (normal, motion) ∈ spellings) :
    Denotes normal motion
  | jump {beginning word : String} {make : Category → Motion} {category : Category}
    (unlisted : beginning ++ word ∉ spellings.map Prod.fst)
    (begins : (beginning, make) ∈ jumps) (named : (word, category) ∈ Category.spellings) :
    Denotes (beginning ++ word) (make category)

theorem isLow_normalName (text : String) : ∀ c ∈ (normalName text).toList, Text.IsLow c := by
  intro c member
  rw [normalName, String.toList_ofList, Text.lowercase, String.toList_ofList,
    List.mem_map] at member
  obtain ⟨low, lowered, same⟩ := member
  split at same
  · exact same ▸ (by decide : Text.IsLow '-')
  · exact same ▸ Text.isLow_lowerAfter low lowered

/-- What a name denotes is what it is read as. -/
theorem parse_of_denotes {text normal : String} {motion : Motion} (denotes : Denotes normal motion)
    (same : normalName text = normal) : parse text = .ok motion := by
  have low := isLow_normalName text
  rw [same] at low
  cases denotes with
  | plain listed =>
    rw [parse, same, (lookup_eq_some_iff_mem nodup_spellings).mpr listed]
  | jump unlisted begins named =>
    have read := (Category.parse_eq_ok_iff_of_low fun c member =>
      low c (String.toList_append ▸ List.mem_append_right _ member)).mpr named
    simp only [parse, same, lookup_eq_none_iff_not_mem.mpr unlisted, jump?_complete begins, read]

/-- A name is read only as what it denotes. -/
theorem denotes_of_parse {text : String} {motion : Motion} (read : parse text = .ok motion) :
    Denotes (normalName text) motion := by
  have low := isLow_normalName text
  unfold parse at read
  split at read
  · rename_i found
    cases read
    exact .plain ((lookup_eq_some_iff_mem nodup_spellings).mp found)
  · rename_i missing
    split at read
    · rename_i make rest found
      obtain ⟨beginning, begins, whole⟩ := jump?_sound found
      split at read
      · rename_i category named
        cases read
        have unlisted := lookup_eq_none_iff_not_mem.mp missing
        rw [whole] at low unlisted ⊢
        exact .jump unlisted begins ((Category.parse_eq_ok_iff_of_low fun c member =>
          low c (String.toList_append ▸ List.mem_append_right _ member)).mp named)
      · cases read
    · cases read

/-- A name is refused as a whole and as it was given. -/
theorem fault_of_parse {text : String} {fault : Fault} (failed : parse text = .error fault) :
    fault = .unknownMotion text := by
  unfold parse at failed
  split at failed
  · cases failed
  · split at failed
    · split at failed <;> cases failed
      rfl
    · cases failed
      rfl

theorem spellings_plain : ∀ entry ∈ spellings, isPlain entry.1 = true := by
  decide +kernel

theorem beginnings_plain : ∀ entry ∈ jumps, isPlain entry.1 = true := by
  decide +kernel

theorem normalName_of_plain {text : String} (plain : isPlain text = true) :
    normalName text = text := by
  rw [← String.toList_inj, normalName, String.toList_ofList, Text.lowercase, String.toList_ofList,
    Text.lowerAfter_of_ascii (ascii_of_isPlain plain), List.map_map]
  refine (List.map_congr_left fun c member => ?_).trans (List.map_id _)
  obtain ⟨-, low, noUnderscore⟩ := isPlain_iff.mp plain c member
  simp [low, noUnderscore]

/-- What denotes a motion is in normal form. -/
theorem normalName_of_denotes {normal : String} {motion : Motion}
    (denotes : Denotes normal motion) : normalName normal = normal := by
  apply normalName_of_plain
  cases denotes with
  | plain listed =>
    have plain := spellings_plain _ listed
    exact plain
  | jump _ begins named =>
    have first := beginnings_plain _ begins
    have second := Category.spellings_plain _ named
    rw [isPlain_append, first, second]
    rfl

/-- The canonical name of a motion denotes it. -/
theorem denotes_name (motion : Motion) : Denotes motion.name motion := by
  cases motion with
  | next category =>
    have unlisted : ∀ category ∈ Category.all,
        "next-" ++ category.name ∉ spellings.map Prod.fst := by
      decide +kernel
    have begins : ("next-", next) ∈ jumps := List.mem_cons_self
    exact .jump (unlisted category category.mem_all) begins category.name_mem_spellings
  | previous category =>
    have unlisted : ∀ category ∈ Category.all,
        "prev-" ++ category.name ∉ spellings.map Prod.fst := by
      decide +kernel
    have begins : ("prev-", previous) ∈ jumps := List.mem_cons_of_mem _ List.mem_cons_self
    exact .jump (unlisted category category.mem_all) begins category.name_mem_spellings
  | _ => exact .plain (by decide +kernel)

theorem exists_denotes_iff {normal : String} : (∃ motion, Denotes normal motion) ↔
    normal ∈ spellings.map Prod.fst ∨ ∃ beginning ∈ jumps.map Prod.fst,
      ∃ word ∈ Category.spellings.map Prod.fst, normal = beginning ++ word := by
  constructor
  · rintro ⟨motion, denotes⟩
    cases denotes with
    | plain listed => exact .inl (List.mem_map_of_mem listed)
    | jump _ begins named =>
      exact .inr ⟨_, List.mem_map_of_mem begins, _, List.mem_map_of_mem named, rfl⟩
  · intro spelled
    by_cases listed : normal ∈ spellings.map Prod.fst
    · obtain ⟨⟨_, motion⟩, member, rfl⟩ := List.mem_map.mp listed
      exact ⟨motion, .plain member⟩
    · obtain ⟨beginning, begins, word, named, rfl⟩ := spelled.resolve_left listed
      obtain ⟨⟨_, make⟩, jump, rfl⟩ := List.mem_map.mp begins
      obtain ⟨⟨_, category⟩, spelling, rfl⟩ := List.mem_map.mp named
      exact ⟨make category, .jump listed jump spelling⟩

theorem ofName?_eq_some_iff {text : String} {motion : Motion} :
    ofName? text = some motion ↔ parse text = .ok motion := by
  unfold ofName?
  cases parse text <;> simp [Except.toOption]

/-- A text is read as the motion that its normal form denotes, and as nothing else: it is read if
the normal form is a listed name, or the beginning of a jump followed by the spelling of a category,
the first of these before the second. Texts with the same normal form are read alike. A text that is
not read is refused as a motion, as it was given. And the canonical name of a motion is read as that
motion. -/
theorem names_read_by_one_grammar (text : String) :
    (∀ motion, parse text = .ok motion ↔ Denotes (normalName text) motion) ∧
    ((∃ motion, parse text = .ok motion) ↔
      normalName text ∈ spellings.map Prod.fst ∨ ∃ beginning ∈ jumps.map Prod.fst,
        ∃ word ∈ Category.spellings.map Prod.fst, normalName text = beginning ++ word) ∧
    (∀ word category, Category.parse word = .ok category ↔
      (Text.lowercase word, category) ∈ Category.spellings) ∧
    (∀ other, normalName other = normalName text → ofName? other = ofName? text) ∧
    (∀ fault, parse text = .error fault → fault = .unknownMotion text) ∧
    ∀ motion : Motion, parse motion.name = .ok motion := by
  have reads : ∀ text motion, parse text = .ok motion ↔ Denotes (normalName text) motion :=
    fun text motion => ⟨denotes_of_parse, fun denotes => parse_of_denotes denotes rfl⟩
  refine ⟨reads text, ?_, ?_, ?_, ?_, ?_⟩
  · rw [exists_congr (reads text), exists_denotes_iff]
  · intro word category
    exact Category.parse_eq_ok_iff
  · intro other same
    refine Option.ext fun motion => ?_
    rw [ofName?_eq_some_iff, ofName?_eq_some_iff, reads, reads, same]
  · intro fault failed
    exact fault_of_parse failed
  · intro motion
    have denotes := denotes_name motion
    exact parse_of_denotes denotes (normalName_of_denotes denotes)

/-- Names in capitals, with underscores and with a Kelvin sign, and one that names no category. -/
theorem odd_names_read_by_one_grammar :
    parse "Previous_METHOD" = .ok (.previous .function) ∧
    ofName? "SHRIN\u212A" = ofName? "shrink" ∧
    parse "NEXT-widget" = .error (.unknownMotion "NEXT-widget") := by
  obtain ⟨reads, -⟩ := names_read_by_one_grammar "Previous_METHOD"
  obtain ⟨-, -, -, alike, -⟩ := names_read_by_one_grammar "shrink"
  obtain ⟨-, -, -, -, refused, -⟩ := names_read_by_one_grammar "NEXT-widget"
  refine ⟨?_, ?_, ?_⟩
  · have normal : normalName "Previous_METHOD" = "previous-" ++ "method" := by decide +kernel
    have begins : ("previous-", previous) ∈ jumps := by simp [jumps]
    rw [reads, normal]
    exact .jump (by decide +kernel) begins (by decide +kernel)
  · have sign : normalName "SHRIN\u212A" = "shrink" := by decide +kernel
    exact alike _ (sign.trans (normalName_of_denotes (denotes_name shrink)).symm)
  · cases read : parse "NEXT-widget" with
    | ok motion =>
      have found := ofName?_eq_some_iff.mpr read
      rw [show ofName? "NEXT-widget" = none from by decide +kernel] at found
      cases found
    | error fault => rw [refused fault read]

end Motion

end TreeNav
