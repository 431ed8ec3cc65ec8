import TreeNav.Language.Registry
import TreeNav.Proofs.Run
import TreeNav.Proofs.Targets

/-!
Sessions over a source text. A request is refused for its offsets exactly when the caret or the
end of the range it goes from lies past the end of the source, before anything else is looked
at. Given a parser that keeps to the source, no session that starts inside it is ever refused
so: every move leads to a node of the tree and leaves caret and selection inside the root.
-/
namespace TreeNav

variable {registry : Registry} {grammars : Grammars} {source language : String}

/-- A parse fails because there is no parser of the grammar, or because the parser gives no tree. -/
theorem Adapter.parse_eq_error {adapter : Adapter} {fault : Fault}
    (failed : adapter.parse grammars source = .error fault) :
    (∃ reason, fault = .unusableGrammar reason) ∨ fault = .noTree adapter.table.name := by
  unfold parse at failed
  dsimp only at failed
  split at failed
  · cases failed
    exact .inl ⟨_, rfl⟩
  · split at failed
    · cases failed
    · cases failed
      exact .inr rfl

namespace Registry

theorem resolve_eq_error {asked : String} {fault : Fault}
    (unknown : registry.resolve asked = .error fault) : fault = .unsupportedLanguage asked := by
  unfold resolve at unknown
  split at unknown
  · cases unknown
  · cases unknown
    rfl

/-- What can come of a request over a source, in the order in which it is looked at: its offsets,
its language, the tree of the source, and then the motion. -/
theorem navigateSource_cases (registry : Registry) (grammars : Grammars) (source : String)
    (request : Request) :
    (source.utf8ByteSize < furthest request ∧
      registry.navigateSource grammars source request =
        .error (.offsetOutOfRange (furthest request) source.utf8ByteSize)) ∨
    furthest request ≤ source.utf8ByteSize ∧
      ((registry.resolve request.language = .error (.unsupportedLanguage request.language) ∧
        registry.navigateSource grammars source request =
          .error (.unsupportedLanguage request.language)) ∨
      ∃ adapter, registry.resolve request.language = .ok adapter ∧
        ((∃ fault, adapter.parse grammars source = .error fault ∧
          registry.navigateSource grammars source request = .error fault) ∨
        ∃ parse, adapter.parse grammars source = .ok parse ∧
          registry.navigateSource grammars source request =
            .ok (TreeNav.navigate parse.tree (lens adapter) request))) := by
  unfold navigateSource
  by_cases outside : source.utf8ByteSize < furthest request
  · exact .inl ⟨outside, by rw [if_pos outside]; rfl⟩
  · refine .inr ⟨Nat.not_lt.mp outside, ?_⟩
    rw [if_neg outside]
    cases known : registry.resolve request.language with
    | error fault =>
      obtain rfl := resolve_eq_error known
      exact .inl ⟨rfl, rfl⟩
    | ok adapter =>
      refine .inr ⟨adapter, rfl, ?_⟩
      cases parsed : adapter.parse grammars source with
      | error fault =>
        refine .inl ⟨fault, rfl, ?_⟩
        simp only [bind, Except.bind, parsed]
      | ok parse =>
        refine .inr ⟨parse, rfl, ?_⟩
        simp only [bind, Except.bind, pure, Except.pure, parsed]

/-- Offsets are at fault exactly where the request leaves the source. -/
theorem navigateSource_eq_offsetOutOfRange_iff {request : Request} {offset length : Nat} :
    registry.navigateSource grammars source request = .error (.offsetOutOfRange offset length) ↔
      offset = max request.caret request.current.stop ∧ length = source.utf8ByteSize ∧
        length < offset := by
  have order : furthest request = max request.caret request.current.stop := Nat.max_comm ..
  rcases navigateSource_cases registry grammars source request with ⟨outside, answer⟩ |
    ⟨inside, ⟨_, answer⟩ | ⟨adapter, _, ⟨fault, failed, answer⟩ | ⟨parse, _, answer⟩⟩⟩
  · rw [answer, order]
    rw [order] at outside
    simp only [Except.error.injEq, Fault.offsetOutOfRange.injEq]
    omega
  on_goal 2 => rcases Adapter.parse_eq_error failed with ⟨reason, rfl⟩ | rfl
  all_goals
    rw [answer]
    rw [order] at inside
    simp only [Except.error.injEq, reduceCtorEq, false_iff]
    omega

/-- A language is found to be unknown only where the request stays inside the source. -/
theorem navigateSource_eq_unsupportedLanguage_iff {request : Request} {asked : String} :
    registry.navigateSource grammars source request = .error (.unsupportedLanguage asked) ↔
      max request.caret request.current.stop ≤ source.utf8ByteSize ∧
        registry.resolve request.language = .error (.unsupportedLanguage asked) := by
  have order : furthest request = max request.caret request.current.stop := Nat.max_comm ..
  rw [← order]
  rcases navigateSource_cases registry grammars source request with ⟨outside, answer⟩ |
    ⟨inside, ⟨unknown, answer⟩ | ⟨adapter, known, ⟨fault, failed, answer⟩ | ⟨parse, _, answer⟩⟩⟩
  · simp [answer, Nat.not_le.mpr outside]
  · simp [answer, unknown, inside]
  · rcases Adapter.parse_eq_error failed with ⟨reason, rfl⟩ | rfl <;> simp [answer, known]
  · simp [answer, known]

end Registry

/-- A request of a host: whether it asks for a selection, and how to move. -/
structure Session.Step where
  select : Bool
  motion : Motion
deriving DecidableEq, Repr

/-- The outcome of a step is no movement, or a move to a node of the tree with caret and
selection inside the root. Only a move to the parent leads to the root itself. -/
def Outcome.StaysInside (t : Tree) (step : Session.Step) : Outcome → Prop
  | .noMovement => True
  | .moved caret selection kind => ∃ n : Node t,
      caret = n.span.start ∧ kind = n.kind ∧
      selection = (if step.select || step.motion.changesSelection then some n.span else none) ∧
      (step.motion ≠ .parent → n.isRoot = false) ∧
      (Node.root t).span.start ≤ caret ∧ caret ≤ (Node.root t).span.stop ∧
      ∀ range ∈ selection, (Node.root t).span.covers range = true

namespace Session

/-- Takes over what a move reports; a request that failed changes nothing. -/
def heed (s : Session) : Except Fault Outcome → Session
  | .ok outcome => s.follow outcome
  | .error _ => s

section Sources

variable (registry : Registry) (grammars : Grammars) (source language : String)

/-- The answer to a step over a source. -/
def askSource (s : Session) (step : Step) : Except Fault Outcome :=
  registry.navigateSource grammars source ((s.setSelect step.select).request language step.motion)

/-- The session after a step over a source. -/
def moveSource (s : Session) (step : Step) : Session :=
  (s.setSelect step.select).heed (s.askSource registry grammars source language step)

/-- The answers to some steps over a source, one after the other. -/
def sourceAnswers : Session → List Step → List (Except Fault Outcome)
  | _, [] => []
  | s, step :: rest => s.askSource registry grammars source language step ::
      sourceAnswers (s.moveSource registry grammars source language step) rest

end Sources

/-- Caret and selection lie among the first `length` bytes. -/
structure Within (length : Nat) (s : Session) : Prop where
  caret : s.caret ≤ length
  selection : ∀ ends ∈ s.selection, ends.1 ≤ length ∧ ends.2 ≤ length

theorem Within.furthest_le {length : Nat} {s : Session} (within : s.Within length)
    (language : String) (motion : Motion) :
    Registry.furthest (s.request language motion) ≤ length := by
  have caret : (s.request language motion).caret ≤ length := by
    unfold request
    cases s.selection <;> exact within.caret
  refine Nat.max_le.mpr ⟨?_, caret⟩
  rw [current_request, current]
  split
  · rename_i a b selected
    have ends := within.selection (a, b) selected
    split
    · exact within.caret
    · exact Nat.max_le.mpr ends
  · exact within.caret

variable {t : Tree} {s : Session} {length : Nat}

theorem navigate_staysInside (ok : t.Nested) (s : Session) (lens : Lens) (language : String)
    (step : Step) : (navigate t lens ((s.setSelect step.select).request language
      step.motion)).StaysInside t step := by
  rw [navigate, current_request, motion_request]
  cases found : lens.locate (Node.root t) (s.setSelect step.select).current step.motion with
  | none => trivial
  | some n =>
    have around := ok.covers_of_mem_lineage n.root_mem_lineage
    have ends := (Span.covers_iff ..).mp around
    have width := ok.ordered n
    rw [Outcome.ofTarget, select_request, motion_request]
    refine ⟨n, rfl, rfl, rfl, ?_, ends.1, by omega, ?_⟩
    · intro inward
      exact Node.isRoot_eq_false_iff.mpr (lens.locate_ne_root inward found)
    · intro range reported
      split at reported
      · cases reported
        exact around
      · cases reported

/-- What a session takes over from a move inside the root lies inside the source. -/
theorem within_follow (ok : t.Nested) (inside : (Node.root t).span.stop ≤ length)
    (within : s.Within length) {step : Step} {outcome : Outcome}
    (stays : outcome.StaysInside t step) : (s.follow outcome).Within length := by
  cases outcome with
  | noMovement => exact within
  | moved caret selection kind =>
    obtain ⟨n, rfl, rfl, rfl, _, _, upto, _⟩ := stays
    refine ⟨Nat.le_trans upto inside, ?_⟩
    intro ends kept
    have around := (Span.covers_iff ..).mp (ok.covers_of_mem_lineage n.root_mem_lineage)
    have width := ok.ordered n
    simp only [follow, Option.mem_def, Option.map_eq_some_iff] at kept
    obtain ⟨range, reported, rfl⟩ := kept
    split at reported
    · cases reported
      dsimp only
      omega
    · cases reported

section Runs

variable {adapter : Adapter} {parse : Parse}

/-- One step of a session inside the source: it is answered, the answer stays inside the root,
and so does the session. -/
theorem step_within (registered : registry.resolve language = .ok adapter)
    (parsed : adapter.parse grammars source = .ok parse) (ok : parse.tree.Nested)
    (inside : (Node.root parse.tree).span.stop ≤ source.utf8ByteSize)
    (within : s.Within source.utf8ByteSize) (step : Step) :
    (∃ outcome, s.askSource registry grammars source language step = .ok outcome ∧
      outcome.StaysInside parse.tree step) ∧
    (s.moveSource registry grammars source language step).Within source.utf8ByteSize := by
  have bounded : (s.setSelect step.select).Within source.utf8ByteSize :=
    ⟨within.caret, within.selection⟩
  have answered : s.askSource registry grammars source language step =
      .ok (navigate parse.tree (Registry.lens adapter)
        ((s.setSelect step.select).request language step.motion)) := by
    unfold askSource
    have named : ((s.setSelect step.select).request language step.motion).language = language := by
      unfold request
      cases (s.setSelect step.select).selection <;> rfl
    rcases Registry.navigateSource_cases registry grammars source
      ((s.setSelect step.select).request language step.motion) with ⟨outside, _⟩ |
        ⟨_, ⟨unknown, _⟩ | ⟨other, known, ⟨_, missing, _⟩ | ⟨tree, found, answer⟩⟩⟩
    · exact absurd outside (Nat.not_lt.mpr (bounded.furthest_le language step.motion))
    · rw [named, registered] at unknown
      cases unknown
    · rw [named, registered] at known
      cases known
      rw [parsed] at missing
      cases missing
    · rw [named, registered] at known
      cases known
      rw [parsed] at found
      cases found
      exact answer
  have stays := navigate_staysInside ok s (Registry.lens adapter) language step
  refine ⟨⟨_, answered, stays⟩, ?_⟩
  rw [moveSource, answered]
  exact within_follow ok inside bounded stays

/-- A whole run of a session that starts inside the source. -/
theorem run_within (registered : registry.resolve language = .ok adapter)
    (parsed : adapter.parse grammars source = .ok parse) (ok : parse.tree.Nested)
    (inside : (Node.root parse.tree).span.stop ≤ source.utf8ByteSize)
    (within : s.Within source.utf8ByteSize) (steps : List Step) :
    List.Forall₂ (fun step answer => ∃ outcome, answer = .ok outcome ∧
        outcome.StaysInside parse.tree step) steps
      (s.sourceAnswers registry grammars source language steps) := by
  induction steps generalizing s with
  | nil => exact .nil
  | cons step rest ih =>
    obtain ⟨answered, kept⟩ := step_within registered parsed ok inside within step
    exact .cons answered (ih kept)

end Runs

/-- Over a source whose tree is nested and lies inside it, a session that starts with a caret
inside the source and without a selection is answered at every step, and every answer stays
inside the root. A request is refused for its offsets if and only if the larger of its caret and
the end of its current range is past the end of the source; that its language is unknown is
found only where it is not. -/
theorem source_session_stays_inside (registry : Registry) (grammars : Grammars) (source : String) :
    (∀ (language : String) (adapter : Adapter) (parse : Parse),
      registry.resolve language = .ok adapter → adapter.parse grammars source = .ok parse →
      parse.tree.Nested →
      (⟨0, source.utf8ByteSize⟩ : Span).covers (Node.root parse.tree).span = true →
      ∀ s : Session, s.caret ≤ source.utf8ByteSize → s.selection = none → ∀ steps : List Step,
        List.Forall₂ (fun step answer => ∃ outcome, answer = .ok outcome ∧
            outcome.StaysInside parse.tree step) steps
          (s.sourceAnswers registry grammars source language steps)) ∧
    (∀ (request : Request) (offset length : Nat),
      registry.navigateSource grammars source request = .error (.offsetOutOfRange offset length) ↔
        offset = max request.caret request.current.stop ∧ length = source.utf8ByteSize ∧
          length < offset) ∧
    ∀ (request : Request) (asked : String),
      registry.navigateSource grammars source request = .error (.unsupportedLanguage asked) ↔
        max request.caret request.current.stop ≤ source.utf8ByteSize ∧
          registry.resolve request.language = .error (.unsupportedLanguage asked) := by
  refine ⟨?_, fun _ _ _ => Registry.navigateSource_eq_offsetOutOfRange_iff,
    fun _ _ => Registry.navigateSource_eq_unsupportedLanguage_iff⟩
  intro language adapter parse registered parsed ok inside s caret unselected steps
  have within : s.Within source.utf8ByteSize := ⟨caret, by simp [unselected]⟩
  exact run_within registered parsed ok ((Span.covers_iff ..).mp inside).2 within steps

/-- An array with blanks on both sides. -/
def arraySource : String := "\n\n  [ 1 ,\n 2 ]  \n"

/-- Its tree, whose root starts after the blanks. -/
def arrayParse : Parse :=
  ⟨.node ⟨"document", true, ⟨4, 17⟩⟩ [
    .node ⟨"array", true, ⟨4, 14⟩⟩ [
      .node ⟨"[", false, ⟨4, 5⟩⟩ [],
      .node ⟨"number", true, ⟨6, 7⟩⟩ [],
      .node ⟨",", false, ⟨8, 9⟩⟩ [],
      .node ⟨"number", true, ⟨11, 12⟩⟩ [],
      .node ⟨"]", false, ⟨13, 14⟩⟩ []]], false⟩

/-- The grammars of a host that knows nothing but the array. -/
def arrayGrammars : Grammars := fun table =>
  { parse? := fun source =>
      if table.id = "json" ∧ source = arraySource then some arrayParse else none }

/-- From before the root, into the array and out of it, with and without a selection. -/
theorem array_session_stays_inside :
    Registry.builtin.resolve "json" = .ok (.of .json) ∧
    (Adapter.of .json).parse arrayGrammars arraySource = .ok arrayParse ∧
    arrayParse.tree.Nested ∧
    List.Forall₂ (fun step answer => ∃ outcome, answer = .ok outcome ∧
        outcome.StaysInside arrayParse.tree step)
      [⟨true, .firstChild⟩, ⟨false, .expand⟩, ⟨true, .lastChild⟩, ⟨false, .previousSibling⟩,
        ⟨true, .parent⟩, ⟨true, .parent⟩]
      (Session.sourceAnswers Registry.builtin arrayGrammars arraySource "json" {}
        [⟨true, .firstChild⟩, ⟨false, .expand⟩, ⟨true, .lastChild⟩, ⟨false, .previousSibling⟩,
          ⟨true, .parent⟩, ⟨true, .parent⟩]) := by
  have registered : Registry.builtin.resolve "json" = .ok (.of .json) := rfl
  have parsed : (Adapter.of .json).parse arrayGrammars arraySource = .ok arrayParse := by
    have tree : (arrayGrammars (Adapter.of .json).table).parse? arraySource = some arrayParse := by
      have known : (Adapter.of .json).table.id = "json" := rfl
      simp [arrayGrammars, known]
    unfold Adapter.parse
    simp only [tree]
    rfl
  have ok : arrayParse.tree.Nested := by decide +kernel
  exact ⟨registered, parsed, ok,
    (source_session_stays_inside Registry.builtin arrayGrammars arraySource).1 "json" _ _ registered
      parsed ok (by decide +kernel) {} (Nat.zero_le _) rfl _⟩

end Session

end TreeNav
