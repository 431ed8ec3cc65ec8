import Mathlib.Data.Finset.Card
import TreeNav.Locate.Sibling
import TreeNav.Proofs.LastWord
import TreeNav.SortedMap

/-!
Setting up a classifier. Of the steps that decide a kind, and of those that set a flag, the last one
counts; the kinds that steps put into a category add up. So every answer of the classifier can be
read off the list of steps.
-/
namespace TreeNav.Classifier

namespace Step

/-- What the step decides of a kind. -/
def wordOn? (kind : String) : Step → Option Verdict
  | .kinds verdict decided => if kind ∈ decided then some verdict else none
  | _ => none

/-- What the step says of anonymous nodes. -/
def anonymous? : Step → Option Bool
  | .anonymousTrivial flag => some flag
  | _ => none

/-- What the step says of punctuation. -/
def punctuation? : Step → Option Bool
  | .punctuationTrivial flag => some flag
  | _ => none

/-- The kinds that the step decides. -/
def listed : Step → List String
  | .kinds _ decided => decided
  | _ => []

/-- The kinds that the step puts into a category. -/
def given (category : Category) : Step → List String
  | .members own added => if own = category then added else []
  | _ => []

/-- The kinds whose children the step puts into a category. -/
def held (category : Category) : Step → List String
  | .containers own added => if own = category then added else []
  | _ => []

/-- The word of the last step that has one. -/
def last {α : Type} (word : Step → Option α) (steps : List Step) : Option α :=
  (steps.filterMap word).getLast?

theorem last_cons {α : Type} (word : Step → Option α) (first : Step) (rest : List Step) :
    last word (first :: rest) = (last word rest).or (word first) := by
  unfold last
  rw [List.filterMap_cons]
  split
  · rename_i silent
    rw [silent, Option.or_none]
  · rename_i said
    rw [List.getLast?_cons, said]
    cases (rest.filterMap word).getLast? <;> rfl

end Step

variable {kind : String} {category : Category}

/-- What every step that has a word on it replaces is in the end the last of these words. -/
theorem foldl_step_of_replaced {α : Type} {word : Step → Option α} (read : Classifier → Option α)
    (each : ∀ c s, read (c.step s) = (word s).or (read c)) (c : Classifier) (steps : List Step) :
    read (steps.foldl step c) = (Step.last word steps).or (read c) := by
  induction steps generalizing c with
  | nil => rfl
  | cons first rest ih => rw [List.foldl_cons, ih, each, Step.last_cons, Option.or_assoc]

/-- What every step adds to is in the end all that was added, in order. -/
theorem foldl_step_of_added {α : Type} {adds : Step → List α} (read : Classifier → List α)
    (each : ∀ c s, read (c.step s) = read c ++ adds s) (c : Classifier) (steps : List Step) :
    read (steps.foldl step c) = read c ++ steps.flatMap adds := by
  induction steps generalizing c with
  | nil => simp
  | cons first rest ih => rw [List.foldl_cons, ih, each, List.flatMap_cons, List.append_assoc]

theorem lookup_ofSteps (steps : List Step) (kind : String) :
    (ofSteps steps).verdicts.lookup kind = Step.last (Step.wordOn? kind) steps := by
  have each : ∀ (c : Classifier) (s : Step), (c.step s).verdicts.lookup kind =
      (s.wordOn? kind).or (c.verdicts.lookup kind) := by
    intro c s
    cases s with
    | kinds verdict decided =>
      rw [step, lookup_decideKinds, Step.wordOn?]
      by_cases member : kind ∈ decided <;> simp [member]
    | _ => rfl
  exact (foldl_step_of_replaced (·.verdicts.lookup kind) each empty steps).trans Option.or_none

/-- A flag that is off at first is in the end what the last step that sets it says. -/
theorem flag_ofSteps {word : Step → Option Bool} (read : Classifier → Bool)
    (each : ∀ c s, some (read (c.step s)) = (word s).or (some (read c)))
    (off : read empty = false) (steps : List Step) :
    read (ofSteps steps) = (Step.last word steps).getD false := by
  have whole := foldl_step_of_replaced (fun c => some (read c)) each empty steps
  rw [Option.or_some, Option.some.injEq, off] at whole
  exact whole

theorem anonymousTrivial_ofSteps (steps : List Step) :
    (ofSteps steps).anonymousTrivial = (Step.last Step.anonymous? steps).getD false := by
  refine flag_ofSteps (·.anonymousTrivial) ?_ rfl steps
  intro c s
  cases s <;> rfl

theorem punctuationTrivial_ofSteps (steps : List Step) :
    (ofSteps steps).punctuationTrivial = (Step.last Step.punctuation? steps).getD false := by
  refine flag_ofSteps (·.punctuationTrivial) ?_ rfl steps
  intro c s
  cases s <;> rfl

/-- The kinds with a verdict, read from the oldest one on, are those that the steps list. -/
theorem keys_ofSteps (steps : List Step) :
    ((ofSteps steps).verdicts.map Prod.fst).reverse = steps.flatMap Step.listed := by
  have each : ∀ (c : Classifier) (s : Step), ((c.step s).verdicts.map Prod.fst).reverse =
      (c.verdicts.map Prod.fst).reverse ++ s.listed := by
    intro c s
    cases s with
    | kinds verdict decided =>
      rw [step, keys_decideKinds, List.reverse_append, List.reverse_reverse]
      rfl
    | _ => exact (List.append_nil _).symm
  exact foldl_step_of_added (fun c => (c.verdicts.map Prod.fst).reverse) each empty steps

/-- The kinds that some pairs put under a category. -/
def under (category : Category) (pairs : List (Category × String)) : List String :=
  pairs.filterMap fun (own, kind) => if own = category then some kind else none

theorem mem_under {pairs : List (Category × String)} :
    kind ∈ under category pairs ↔ (category, kind) ∈ pairs := by
  simp [under]

theorem under_append_map (pairs : List (Category × String)) (own : Category)
    (kinds : List String) : under category (pairs ++ kinds.map fun kind => (own, kind)) =
      under category pairs ++ if own = category then kinds else [] := by
  by_cases same : own = category <;> simp [under, same, List.filterMap_map]

theorem members_ofSteps (steps : List Step) (category : Category) :
    under category (ofSteps steps).members = steps.flatMap (Step.given category) := by
  have each : ∀ (c : Classifier) (s : Step), under category (c.step s).members =
      under category c.members ++ s.given category := by
    intro c s
    cases s with
    | members own added => exact under_append_map c.members own added
    | _ => exact (List.append_nil _).symm
  exact foldl_step_of_added (fun c => under category c.members) each empty steps

theorem containers_ofSteps (steps : List Step) (category : Category) :
    under category (ofSteps steps).containers = steps.flatMap (Step.held category) := by
  have each : ∀ (c : Classifier) (s : Step), under category (c.step s).containers =
      under category c.containers ++ s.held category := by
    intro c s
    cases s with
    | containers own added => exact under_append_map c.containers own added
    | _ => exact (List.append_nil _).symm
  exact foldl_step_of_added (fun c => under category c.containers) each empty steps

theorem isPunctuation_iff : isPunctuation kind = true ↔
    kind ≠ "" ∧ ∀ c ∈ kind.toList, Text.isAlphanumeric c = false := by
  simp [isPunctuation]

/-- A kind that no step decides falls to the rules for anonymous nodes and for punctuation. -/
theorem verdict_eq_trivial_iff {c : Classifier} (undecided : c.verdicts.lookup kind = none)
    (named : Bool) : c.verdict kind named = .trivial ↔
      (c.anonymousTrivial = true ∧ named = false) ∨
      (c.punctuationTrivial = true ∧ isPunctuation kind = true) := by
  rw [verdict, undecided]
  cases c.anonymousTrivial <;> cases named <;> cases c.punctuationTrivial <;>
    cases isPunctuation kind <;> simp

/-- As many kinds are decided one by one as there are different ones among those listed. -/
theorem size_ofSteps (steps : List Step) :
    (ofSteps steps).size = (steps.flatMap Step.listed).toFinset.card := by
  have distinct := Text.foldl_pushUnique List.nodup_nil
    ((ofSteps steps).verdicts.map Prod.fst)
  rw [distinct.1, List.nil_append] at distinct
  rw [size, ← keys_ofSteps, List.toFinset_reverse, ← List.toFinset_card_of_nodup distinct.2]
  congr 1
  ext kind
  rw [List.mem_toFinset, List.mem_toFinset, List.mem_eraseDups]

theorem mem_insertSorted {text other : String} {texts : List String} :
    other ∈ insertSorted text texts ↔ other = text ∨ other ∈ texts := by
  induction texts with
  | nil => simp [insertSorted]
  | cons first rest ih =>
    rw [insertSorted]
    split
    · simp
    · split
      · rename_i same
        simp [same]
      · simp only [List.mem_cons, ih]
        exact or_left_comm

/-- A sorted list of texts is kept as the keys of a sorted map are. -/
theorem map_insertSorted (text : String) (texts : List String) :
    ((insertSorted text texts).map fun key => (key, ())) =
      SortedMap.put text () (texts.map fun key => (key, ())) := by
  induction texts with
  | nil => rfl
  | cons first rest ih =>
    rw [insertSorted, List.map_cons, SortedMap.put]
    split
    · rfl
    · split
      · rename_i same
        rw [same, List.map_cons]
      · rw [List.map_cons, ih]

theorem pairwise_insertSorted (text : String) {texts : List String}
    (ascending : texts.Pairwise (· < ·)) : (insertSorted text texts).Pairwise (· < ·) := by
  have keys : Ascending (texts.map fun key => (key, ())) := List.pairwise_map.mpr ascending
  have put := SortedMap.ascending_put text () keys
  rw [← map_insertSorted, Ascending, List.pairwise_map] at put
  exact put

theorem mem_kindsOf {c : Classifier} : kind ∈ c.kindsOf category ↔
    kind ∈ under category c.members := by
  rw [kindsOf]
  change kind ∈ (under category c.members).foldr insertSorted [] ↔ _
  induction under category c.members with
  | nil => rfl
  | cons first rest ih => rw [List.foldr_cons, mem_insertSorted, ih, List.mem_cons]

theorem pairwise_kindsOf (c : Classifier) (category : Category) :
    (c.kindsOf category).Pairwise (· < ·) :=
  List.foldrRecOn _ insertSorted List.Pairwise.nil fun _ ascending kind _ =>
    pairwise_insertSorted kind ascending

theorem belongs_iff {t : Tree} {c : Classifier} {view : View} {n : Node t} :
    (Lens.mk view c).belongs category n = true ↔
      n.kind ∈ under category c.members ∨
      (∃ above, n.parent? = some above ∧ above.kind ∈ under category c.containers) ∧
        c.verdict n.kind (view.named n.label) = .significant := by
  rw [mem_under, Lens.belongs]
  unfold belongs
  cases parent : n.parent? with
  | none => simp [Node.kind]
  | some above => simp [Node.kind, mem_under, isSignificant]

/-- A kind is decided by the last step that lists it. If none does, it is trivial where the last
word on anonymous nodes or the last word on punctuation makes it so. The number of kinds decided one
by one is that of the different kinds listed. The kinds of a category are all that were put there,
in strictly ascending order; and a node is in a category if its kind was put there, or if the kind
of its parent was put there as a container and the node is significant. -/
theorem ofSteps_read_off_steps (steps : List Step) :
    (∀ kind named,
      (∀ verdict, Step.last (Step.wordOn? kind) steps = some verdict →
        (ofSteps steps).verdict kind named = verdict) ∧
      (Step.last (Step.wordOn? kind) steps = none →
        ((ofSteps steps).verdict kind named = .trivial ↔
          (Step.last Step.anonymous? steps = some true ∧ named = false) ∨
          (Step.last Step.punctuation? steps = some true ∧
            kind ≠ "" ∧ ∀ c ∈ kind.toList, Text.isAlphanumeric c = false)))) ∧
    (ofSteps steps).size = (steps.flatMap Step.listed).toFinset.card ∧
    (∀ category, ((ofSteps steps).kindsOf category).Pairwise (· < ·) ∧
      ∀ kind, kind ∈ (ofSteps steps).kindsOf category ↔
        kind ∈ steps.flatMap (Step.given category)) ∧
    ∀ (t : Tree) (view : View) (category : Category) (n : Node t),
      (Lens.mk view (ofSteps steps)).belongs category n = true ↔
        n.kind ∈ steps.flatMap (Step.given category) ∨
        (∃ above, n.parent? = some above ∧ above.kind ∈ steps.flatMap (Step.held category)) ∧
          (ofSteps steps).verdict n.kind (view.named n.label) = .significant := by
  refine ⟨?_, size_ofSteps steps, ?_, ?_⟩
  · intro kind named
    constructor
    · intro verdict said
      rw [Classifier.verdict, lookup_ofSteps, said]
    · intro silent
      rw [← lookup_ofSteps] at silent
      rw [verdict_eq_trivial_iff silent, anonymousTrivial_ofSteps, punctuationTrivial_ofSteps,
        isPunctuation_iff, Option.getD_eq_iff, Option.getD_eq_iff]
      simp
  · intro category
    refine ⟨pairwise_kindsOf _ category, ?_⟩
    intro kind
    rw [mem_kindsOf, members_ofSteps]
  · intro t view category n
    rw [belongs_iff, members_ofSteps, containers_ofSteps]

/-- Steps of all sorts, some of which take back what others said. -/
def mixedSteps : List Step :=
  [.kinds .trivial ["comment", ";"], .members .function ["method", "closure"],
    .anonymousTrivial true, .kinds .significant [";", "=>"], .punctuationTrivial true,
    .members .function ["closure", "arrow"], .containers .argument ["arguments"],
    .anonymousTrivial false]

theorem mixedSteps_read_off :
    (ofSteps mixedSteps).verdict ";" false = .significant ∧
    (ofSteps mixedSteps).verdict "," true = .trivial ∧
    (ofSteps mixedSteps).verdict "let" false ≠ .trivial ∧
    (ofSteps mixedSteps).size = 3 ∧
    "method" ∈ (ofSteps mixedSteps).kindsOf .function := by
  obtain ⟨decided, size, grouped, _⟩ := ofSteps_read_off_steps mixedSteps
  refine ⟨?_, ?_, ?_, ?_, ?_⟩
  · exact (decided ";" false).1 .significant (by decide +kernel)
  · refine ((decided "," true).2 (by decide +kernel)).mpr (.inr ⟨by decide +kernel, ?_⟩)
    exact isPunctuation_iff.mp (by decide +kernel)
  · rw [Ne, (decided "let" false).2 (by decide +kernel), ← isPunctuation_iff]
    decide +kernel
  · rw [size]
    decide +kernel
  · rw [(grouped .function).2]
    decide +kernel

end TreeNav.Classifier
