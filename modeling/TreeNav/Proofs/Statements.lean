import TreeNav.Proofs.Quoting

/-!
Plain values, headers and assignments are read back as the statements that they were written
for, line by line.
-/
namespace TreeNav.Toml

/-- A value that is written without braces and whose parts have no parts: a text, a truth value
or an array of texts. -/
inductive Value.Plain : Value → Prop
  | text (content : String) : Plain (.text content)
  | boolean (flag : Bool) : Plain (.boolean flag)
  | texts (contents : List String) : Plain (.array (contents.map .text))

@[simp] theorem ends_cons {c : Char} {rest : List Char} :
    Ends (c :: rest) ↔ c ≠ '"' ∧ c ≠ '\'' ∧ isBareKey c = false := by
  simp [Ends]

section Values

variable {rest : List Char}

theorem scalar_stringText (content : String) (ends : Ends rest) :
    scalar (stringText content ++ rest) = some (.text content, rest) := by
  have read := quoted_stringText content ends
  obtain ⟨c, tail, written, quote⟩ := exists_head_stringText content
  rw [written, List.cons_append] at read ⊢
  rcases quote with rfl | rfl <;> rw [scalar, read] <;> rfl

theorem value_stringText (depth : Nat) (content : String) (ends : Ends rest) :
    value depth (stringText content ++ rest) = some (.text content, rest) := by
  have read := scalar_stringText content ends
  cases depth with
  | zero => exact read
  | succ depth =>
    obtain ⟨c, tail, written, quote⟩ := exists_head_stringText content
    rw [written] at read ⊢
    rcases quote with rfl | rfl <;> exact read

theorem value_boolean (depth : Nat) (flag : Bool) (rest : List Char) :
    value depth ((Value.boolean flag).render ++ rest) = some (.boolean flag, rest) := by
  cases depth <;> cases flag <;> rfl

/-- What stands before the items of an array is passed over. -/
theorem skipTrivia_stringText (content : String) (rest : List Char) :
    skipTrivia false (stringText content ++ rest) = stringText content ++ rest ∧
      (stringText content ++ rest).head? ≠ some ']' := by
  obtain ⟨c, tail, written, quote⟩ := exists_head_stringText content
  rw [written]
  rcases quote with rfl | rfl <;> exact ⟨rfl, by simp⟩

section Items

variable {one : Scan Value} {fuel : Nat} {text start more : List Char} {item : Value}

theorem arrayItems_eq (skipped : skipTrivia false text = start) (opens : start.head? ≠ some ']') :
    arrayItems one (fuel + 1) text = (do
      let (item, rest) ← one start
      match skipTrivia false rest with
      | ',' :: rest => do
        let (items, rest) ← arrayItems one fuel rest
        return (item :: items, rest)
      | ']' :: rest => return ([item], rest)
      | _ => none) := by
  rw [arrayItems, skipped]
  split
  · exact absurd rfl opens
  · rfl

/-- An item with a comma after it. -/
theorem arrayItems_comma (skipped : skipTrivia false text = start)
    (opens : start.head? ≠ some ']') (read : one start = some (item, ',' :: more)) :
    arrayItems one (fuel + 1) text =
      (arrayItems one fuel more).map fun (items, rest) => (item :: items, rest) := by
  rw [arrayItems_eq skipped opens, read]
  show (arrayItems one fuel more >>= _) = _
  cases arrayItems one fuel more <;> rfl

/-- An item right before the closing bracket. -/
theorem arrayItems_last (skipped : skipTrivia false text = start)
    (opens : start.head? ≠ some ']') (read : one start = some (item, ']' :: more)) :
    arrayItems one (fuel + 1) text = some ([item], more) := by
  rw [arrayItems_eq skipped opens, read]
  rfl

end Items

theorem renderItems_cons (item : Value) (rest : List Value) : renderItems (item :: rest) =
    "    ".toList ++ item.render ++ [',', '\n'] ++ renderItems rest :=
  rfl

theorem length_le_renderItems (items : List Value) : items.length ≤ (renderItems items).length := by
  induction items with
  | nil => exact Nat.zero_le _
  | cons item rest ih =>
    rw [renderItems_cons]
    simp only [List.length_append, List.length_cons, List.length_nil]
    omega

theorem ends_comma (rest : List Char) : Ends (',' :: rest) := ends_cons.mpr (by decide)

theorem ends_bracket (rest : List Char) : Ends (']' :: rest) := ends_cons.mpr (by decide)

theorem arrayItems_renderItems (depth : Nat) (contents : List String) {fuel : Nat}
    (enough : contents.length < fuel) (rest : List Char) :
    arrayItems (value depth) fuel ('\n' :: (renderItems (contents.map .text) ++ ']' :: rest)) =
      some (contents.map .text, rest) := by
  induction contents generalizing fuel with
  | nil =>
    obtain ⟨fuel, rfl⟩ := Nat.exists_eq_succ_of_ne_zero (Nat.ne_of_gt enough)
    rfl
  | cons content others ih =>
    obtain ⟨fuel, rfl⟩ := Nat.exists_eq_succ_of_ne_zero (by omega : fuel ≠ 0)
    have follows := ih (Nat.lt_of_succ_lt_succ enough)
    have whole : '\n' :: (renderItems ((content :: others).map .text) ++ ']' :: rest) =
        '\n' :: ' ' :: ' ' :: ' ' :: ' ' :: (stringText content ++
          ',' :: '\n' :: (renderItems (others.map .text) ++ ']' :: rest)) := by
      simp [renderItems_cons, Value.render]
    generalize '\n' :: (renderItems (others.map .text) ++ ']' :: rest) = more at follows whole
    obtain ⟨skipped, opens⟩ := skipTrivia_stringText content (',' :: more)
    have passed : skipTrivia false ('\n' :: ' ' :: ' ' :: ' ' :: ' ' ::
        (stringText content ++ ',' :: more)) = stringText content ++ ',' :: more := skipped
    rw [whole, arrayItems_comma passed opens (value_stringText depth content (ends_comma more)),
      follows]
    rfl

/-- Every plain value is read back. -/
theorem value_render {v : Value} (plain : v.Plain) (depth : Nat) (ends : Ends rest) :
    value (depth + 1) (v.render ++ rest) = some (v, rest) := by
  cases plain with
  | text content =>
    rw [Value.render]
    exact value_stringText (depth + 1) content ends
  | boolean flag => exact value_boolean (depth + 1) flag rest
  | texts contents =>
    cases contents with
    | nil => rfl
    | cons first others =>
      cases others with
      | nil =>
        obtain ⟨skipped, opens⟩ := skipTrivia_stringText first (']' :: rest)
        have whole : (Value.array [.text first]).render ++ rest =
            '[' :: (stringText first ++ ']' :: rest) := by
          simp [Value.render]
        rw [List.map_cons, List.map_nil, whole, value,
          arrayItems_last skipped opens (value_stringText depth first (ends_bracket rest))]
        rfl
      | cons second others =>
        have whole : (Value.array ((first :: second :: others).map .text)).render ++ rest =
            '[' :: '\n' ::
              (renderItems ((first :: second :: others).map .text) ++ ']' :: rest) := by
          simp [Value.render]
        generalize first :: second :: others = contents at whole
        have enough : contents.length <
            ('\n' :: (renderItems (contents.map .text) ++ ']' :: rest)).length + 1 := by
          have bound := length_le_renderItems (contents.map .text)
          rw [List.length_map] at bound
          simp only [List.length_cons, List.length_append]
          omega
        rw [whole, value, arrayItems_renderItems depth contents enough]
        rfl

end Values

section Keys

variable {rest : List Char}

/-- A character with which a line may begin that holds a statement: the first one of a key, or
an opening bracket. -/
def Opens (c : Char) : Prop := isBareKey c = true ∨ c = '"' ∨ c = '\'' ∨ c = '['

theorem Opens.ne {c d : Char} (opens : Opens c) (closed : ¬Opens d) : c ≠ d := by
  rintro rfl
  exact closed opens

instance (c : Char) : Decidable (Opens c) :=
  inferInstanceAs (Decidable (isBareKey c = true ∨ c = '"' ∨ c = '\'' ∨ c = '['))

theorem Opens.dark {c : Char} (opens : Opens c) : isBlank c = false := by
  have noSpace := opens.ne (by decide : ¬Opens ' ')
  have noTab := opens.ne (by decide : ¬Opens '\t')
  simp [isBlank, noSpace, noTab]

theorem dropBlanks_of_opens {c : Char} (opens : Opens c) (rest : List Char) :
    dropBlanks (c :: rest) = c :: rest :=
  List.dropWhile_cons_of_neg (by simp [opens.dark])

theorem exists_opens_keyText (key : String) :
    ∃ c tail, keyText key = c :: tail ∧ Opens c ∧ c ≠ '[' := by
  obtain ⟨c, tail, written, first⟩ := exists_head_keyText key
  refine ⟨c, tail, written, ?_, ?_⟩
  · rcases first with bare | double | single
    · exact .inl bare
    · exact .inr (.inl double)
    · exact .inr (.inr (.inl single))
  · rintro rfl
    revert first
    decide

theorem dropBlanks_keyText (key : String) (rest : List Char) :
    dropBlanks (keyText key ++ rest) = keyText key ++ rest := by
  obtain ⟨c, tail, written, opens, _⟩ := exists_opens_keyText key
  rw [written]
  exact dropBlanks_of_opens opens _

theorem pathText_singleton (key : String) : pathText [key] = keyText key := by
  simp [pathText]

theorem pathText_cons_cons (key next : String) (others : List String) :
    pathText (key :: next :: others) = keyText key ++ '.' :: pathText (next :: others) := by
  simp [pathText]

theorem length_le_pathText (path : List String) : path.length ≤ (pathText path).length := by
  induction path with
  | nil => exact Nat.zero_le _
  | cons key others ih =>
    obtain ⟨c, tail, written, _⟩ := exists_head_keyText key
    cases others with
    | nil => simp [pathText_singleton, written]
    | cons next others =>
      rw [pathText_cons_cons, written]
      simp only [List.length_cons, List.length_append] at ih ⊢
      omega

/-- A key with no dot after it. -/
theorem keysFor_last {fuel : Nat} {text more : List Char} {key : String}
    (read : simpleKey (dropBlanks text) = some (key, more))
    (stops : (dropBlanks more).head? ≠ some '.') :
    keysFor (fuel + 1) text = some ([key], dropBlanks more) := by
  rw [keysFor, read]
  simp only [Option.bind_eq_bind, Option.bind_some]
  split
  · rename_i shape
    rw [shape] at stops
    exact absurd rfl stops
  · rfl

/-- A key with a dot after it. -/
theorem keysFor_dot {fuel : Nat} {text more : List Char} {key : String}
    (read : simpleKey (dropBlanks text) = some (key, '.' :: more)) :
    keysFor (fuel + 1) text =
      (keysFor fuel more).map fun (keys, rest) => (key :: keys, rest) := by
  rw [keysFor, read]
  show (keysFor fuel more >>= _) = _
  cases keysFor fuel more <;> rfl

theorem keysFor_pathText {path : List String} (filled : path ≠ []) {fuel : Nat}
    (enough : path.length ≤ fuel) (ends : Ends rest) (stops : (dropBlanks rest).head? ≠ some '.') :
    keysFor fuel (pathText path ++ rest) = some (path, dropBlanks rest) := by
  induction path generalizing fuel with
  | nil => exact absurd rfl filled
  | cons key others ih =>
    rw [List.length_cons] at enough
    obtain ⟨fuel, rfl⟩ := Nat.exists_eq_succ_of_ne_zero (by omega : fuel ≠ 0)
    cases others with
    | nil =>
      rw [pathText_singleton]
      exact keysFor_last (by rw [dropBlanks_keyText, simpleKey_keyText key ends]) stops
    | cons next others =>
      rw [pathText_cons_cons, List.append_assoc, List.cons_append]
      have dotted : Ends ('.' :: (pathText (next :: others) ++ rest)) := ends_cons.mpr (by decide)
      rw [keysFor_dot (by rw [dropBlanks_keyText, simpleKey_keyText key dotted]),
        ih (List.cons_ne_nil _ _) (by omega : (next :: others).length ≤ fuel)]
      rfl

/-- Every path of keys is read back, the blanks after it apart. -/
theorem keyPath_pathText (path : KeyPath) (shallow : path.outer.length < depthLimit)
    (ends : Ends rest) (stops : (dropBlanks rest).head? ≠ some '.') :
    keyPath (pathText (path.outer ++ [path.last]) ++ rest) = some (path, dropBlanks rest) := by
  have enough : (path.outer ++ [path.last]).length ≤
      (pathText (path.outer ++ [path.last]) ++ rest).length + 1 :=
    Nat.le_succ_of_le (Nat.le_trans (length_le_pathText _) (by simp))
  rw [keyPath, keysFor_pathText (by simp) enough ends stops]
  simp only [Option.bind_eq_bind, Option.bind_some]
  rw [if_neg (by simp; omega), List.dropLast_concat, List.getLast?_concat]
  rfl

end Keys

section Lines

theorem ends_newline (rest : List Char) : Ends ('\n' :: rest) := ends_cons.mpr (by decide)

theorem dropBlanks_render {v : Value} (plain : v.Plain) (rest : List Char) :
    dropBlanks (v.render ++ rest) = v.render ++ rest := by
  cases plain with
  | text content =>
    obtain ⟨c, tail, written, quote⟩ := exists_head_stringText content
    rw [Value.render, written]
    rcases quote with rfl | rfl <;> rfl
  | boolean flag => cases flag <;> rfl
  | texts contents =>
    cases contents with
    | nil => rfl
    | cons first others => cases others <;> rfl

/-- A line that does not begin with a bracket is an assignment. -/
theorem statement_of_key {text : List Char} (noBracket : text.head? ≠ some '[') :
    statement text = (do
      let (path, rest) ← keyPath text
      let rest ← expect? ['='] rest
      let (assigned, rest) ← value depthLimit (dropBlanks rest)
      return (.assign path assigned, rest)) := by
  rw [statement.eq_def]
  split
  · exact absurd rfl noBracket
  · exact absurd rfl noBracket
  · rfl

/-- The text of an assignment without the end of its line. -/
def assignmentText (key : String) (v : Value) : List Char :=
  keyText key ++ " = ".toList ++ v.render

theorem keyPath_single (key : String) {rest : List Char} (ends : Ends rest)
    (stops : (dropBlanks rest).head? ≠ some '.') :
    keyPath (keyText key ++ rest) = some (⟨[], key⟩, dropBlanks rest) := by
  have shallow : ([] : List String).length < depthLimit := by decide
  have read := keyPath_pathText ⟨[], key⟩ shallow ends stops
  rwa [List.nil_append, pathText_singleton] at read

theorem statement_assign (key : String) {v : Value} (plain : v.Plain) (rest : List Char) :
    statement (assignmentText key v ++ '\n' :: rest) =
      some (.assign ⟨[], key⟩ v, '\n' :: rest) := by
  have whole : assignmentText key v ++ '\n' :: rest =
      keyText key ++ ' ' :: '=' :: ' ' :: (v.render ++ '\n' :: rest) := by
    simp [assignmentText]
  have noBracket : (assignmentText key v ++ '\n' :: rest).head? ≠ some '[' := by
    obtain ⟨c, tail, written, _, other⟩ := exists_opens_keyText key
    simpa [assignmentText, written] using other
  have ends : Ends (' ' :: '=' :: ' ' :: (v.render ++ '\n' :: rest)) := ends_cons.mpr (by decide)
  have read : value depthLimit (v.render ++ '\n' :: rest) = some (v, '\n' :: rest) :=
    value_render plain 78 (ends_newline rest)
  rw [statement_of_key noBracket, whole, keyPath_single key ends (by simp [dropBlanks, isBlank])]
  show (value depthLimit (dropBlanks (v.render ++ '\n' :: rest)) >>= _) = _
  rw [dropBlanks_render plain, read]
  rfl

/-- The text of a header without the end of its line. -/
def headerText (path : KeyPath) : List Char :=
  ['['] ++ pathText (path.outer ++ [path.last]) ++ [']']

theorem exists_opens_pathText {path : List String} (filled : path ≠ []) :
    ∃ c tail, pathText path = c :: tail ∧ Opens c ∧ c ≠ '[' := by
  obtain ⟨key, others, rfl⟩ := List.exists_cons_of_ne_nil filled
  obtain ⟨c, tail, written, first⟩ := exists_opens_keyText key
  cases others with
  | nil => exact ⟨c, tail, by rw [pathText_singleton, written], first⟩
  | cons next others => exact ⟨c, _, by rw [pathText_cons_cons, written, List.cons_append], first⟩

theorem statement_header {path : KeyPath} (shallow : path.outer.length < depthLimit)
    (rest : List Char) :
    statement (headerText path ++ rest) = some (.header path, rest) := by
  obtain ⟨c, tail, written, _, other⟩ := exists_opens_pathText
    (by simp : path.outer ++ [path.last] ≠ [])
  have read := keyPath_pathText path shallow (ends_bracket rest) (by simp [dropBlanks, isBlank])
  have whole : headerText path ++ rest =
      '[' :: (pathText (path.outer ++ [path.last]) ++ ']' :: rest) := by
    simp [headerText]
  rw [whole, statement.eq_def]
  split
  · rename_i shape
    rw [written] at shape
    simp_all
  · rename_i shape
    rw [← (List.cons.inj shape).2, read]
    rfl
  · rename_i shape
    exact absurd rfl (shape _)

/-- The text is made of whole lines, and these are read as the statements. Every line takes a
character at least and one step of reading. -/
def Spelled (text : List Char) (statements : List Statement) : Prop :=
  ∃ lines ≤ text.length, ∀ fuel rest, statementsFor (lines + fuel) (text ++ rest) =
    (statementsFor fuel rest).map (statements ++ ·)

theorem spelled_nil : Spelled [] [] := by
  refine ⟨0, Nat.le_refl 0, fun fuel rest => ?_⟩
  rw [Nat.zero_add, List.nil_append]
  cases statementsFor fuel rest <;> rfl

theorem Spelled.append {text more : List Char} {statements others : List Statement}
    (first : Spelled text statements) (second : Spelled more others) :
    Spelled (text ++ more) (statements ++ others) := by
  obtain ⟨lines, bound, read⟩ := first
  obtain ⟨further, limit, follow⟩ := second
  refine ⟨lines + further, by rw [List.length_append]; omega, fun fuel rest => ?_⟩
  rw [Nat.add_assoc, List.append_assoc, read, follow, Option.map_map]
  congr 1
  funext tail
  exact (List.append_assoc ..).symm

theorem spelled_newline : Spelled ['\n'] [] := by
  refine ⟨1, Nat.le_refl 1, fun fuel rest => ?_⟩
  rw [Nat.add_comm]
  show statementsFor fuel rest = _
  cases statementsFor fuel rest <;> rfl

theorem dropComment_of_opens {c : Char} (opens : Opens c) (rest : List Char) :
    dropComment (c :: rest) = c :: rest := by
  have noComment := opens.ne (by decide : ¬Opens '#')
  rw [dropComment.eq_def]
  split
  · simp_all
  · rfl

/-- A statement on a line of its own. -/
theorem spelled_line {c : Char} {tail : List Char} {first : Statement} (opens : Opens c)
    (read : ∀ rest, statement (c :: tail ++ '\n' :: rest) = some (first, '\n' :: rest)) :
    Spelled (c :: tail ++ ['\n']) [first] := by
  refine ⟨1, by simp, fun fuel rest => ?_⟩
  have inLine : newline? (c :: tail ++ '\n' :: rest) = none :=
    newline?_eq_none fun d starts => by
      obtain rfl : c = d := by simpa using starts
      exact ⟨opens.ne (by decide), opens.ne (by decide)⟩
  have kept : dropComment (dropBlanks (c :: tail ++ '\n' :: rest)) = c :: tail ++ '\n' :: rest := by
    rw [List.cons_append, dropBlanks_of_opens opens, dropComment_of_opens opens]
  rw [Nat.add_comm, List.append_assoc, List.singleton_append, statementsFor, kept]
  split
  · simp_all
  · rw [inLine, read]
    show (statementsFor fuel rest >>= _) = _
    cases statementsFor fuel rest <;> rfl

theorem spelled_assignment (key : String) {v : Value} (plain : v.Plain) :
    Spelled (assignmentText key v ++ ['\n']) [.assign ⟨[], key⟩ v] := by
  have read := statement_assign key plain
  obtain ⟨c, tail, written, opens, _⟩ := exists_opens_keyText key
  have shape : assignmentText key v = c :: (tail ++ " = ".toList ++ v.render) := by
    simp [assignmentText, written]
  rw [shape] at read ⊢
  exact spelled_line opens read

theorem spelled_header {path : KeyPath} (shallow : path.outer.length < depthLimit) :
    Spelled (headerText path ++ ['\n']) [.header path] :=
  spelled_line (.inr (.inr (.inr rfl))) fun rest => statement_header shallow ('\n' :: rest)

theorem renderAssignments_plain {key : String} {v : Value} (plain : v.Plain) {rest : Entries} :
    renderAssignments ((key, v) :: rest) =
      assignmentText key v ++ ['\n'] ++ renderAssignments rest := by
  cases plain <;> rfl

/-- A table whose values are plain, as assignments. -/
theorem spelled_assignments {entries : Entries} (plain : ∀ e ∈ entries, e.2.Plain) :
    Spelled (renderAssignments entries) (entries.map fun e => .assign ⟨[], e.1⟩ e.2) := by
  induction entries with
  | nil => exact spelled_nil
  | cons e rest ih =>
    obtain ⟨key, v⟩ := e
    have first : v.Plain := plain (key, v) List.mem_cons_self
    rw [renderAssignments_plain first, List.map_cons]
    exact (spelled_assignment key first).append
      (ih fun e member => plain e (List.mem_cons_of_mem _ member))

end Lines

end TreeNav.Toml
