import TreeNav.Category
import TreeNav.Text.Alphanumeric
import TreeNav.Tree.View

/-!
Classifiers decide which nodes of a language are worth stopping at (`classify_kind`,
`is_significant`) and which category a node belongs to (`is_category`, `category_kinds`),
by the kind of the node and of its parent. They are set up step by step (`trivial`,
`significant`, `anonymous_trivial`, `punctuation_trivial`, `with_category`,
`with_category_container`). Kinds are kept in lists, so the order of a hash table, which
no answer shows, is left out.
-/
namespace TreeNav

/-- A significant node is a place to stop; a trivial one is passed over. -/
inductive Verdict where
  | significant
  | trivial
deriving DecidableEq, Repr

def Verdict.name : Verdict → String
  | significant => "significant"
  | trivial => "trivial"

/-- What is known of the kinds of a language. `verdicts` are the kinds decided one by
one, the latest decision first. A pair in `members` puts a kind into a category, one in
`containers` puts there the significant children of nodes of that kind. -/
structure Classifier where
  verdicts : List (String × Verdict) := []
  anonymousTrivial : Bool := false
  punctuationTrivial : Bool := false
  members : List (Category × String) := []
  containers : List (Category × String) := []
deriving Repr

namespace Classifier

/-- The classifier that finds every node significant. -/
def empty : Classifier := {}

/-- Decides some kinds, replacing what was decided before. -/
def decideKinds (c : Classifier) (verdict : Verdict) (kinds : List String) : Classifier :=
  { c with verdicts := kinds.foldl (fun known kind => (kind, verdict) :: known) c.verdicts }

/-- What was decided of a kind last counts. -/
theorem lookup_decideKinds (c : Classifier) (verdict : Verdict) (kinds : List String)
    (kind : String) :
    (c.decideKinds verdict kinds).verdicts.lookup kind =
      if kind ∈ kinds then some verdict else c.verdicts.lookup kind := by
  unfold decideKinds
  dsimp only
  generalize c.verdicts = known
  induction kinds generalizing known with
  | nil => rfl
  | cons first rest ih =>
    rw [List.foldl_cons, ih, List.lookup_cons]
    by_cases same : kind = first
    · simp [same]
    · have miss : (kind == first) = false := beq_false_of_ne same
      simp [miss, same]

/-- The latest decision comes first. -/
theorem keys_decideKinds (c : Classifier) (verdict : Verdict) (kinds : List String) :
    (c.decideKinds verdict kinds).verdicts.map Prod.fst =
      kinds.reverse ++ c.verdicts.map Prod.fst := by
  unfold decideKinds
  dsimp only
  generalize c.verdicts = known
  induction kinds generalizing known with
  | nil => rfl
  | cons first rest ih =>
    rw [List.foldl_cons, ih, List.reverse_cons, List.append_assoc]
    rfl

/-- Puts kinds into a category. -/
def addMembers (c : Classifier) (category : Category) (kinds : List String) : Classifier :=
  { c with members := c.members ++ kinds.map fun kind => (category, kind) }

/-- Puts the children of nodes of some kinds into a category. -/
def addContainers (c : Classifier) (category : Category) (kinds : List String) : Classifier :=
  { c with containers := c.containers ++ kinds.map fun kind => (category, kind) }

/-- A step in setting up a classifier. -/
inductive Step where
  | kinds (verdict : Verdict) (kinds : List String)
  | anonymousTrivial (flag : Bool)
  | punctuationTrivial (flag : Bool)
  | members (category : Category) (kinds : List String)
  | containers (category : Category) (kinds : List String)
deriving DecidableEq, Repr

def step (c : Classifier) : Step → Classifier
  | .kinds verdict kinds => c.decideKinds verdict kinds
  | .anonymousTrivial flag => { c with anonymousTrivial := flag }
  | .punctuationTrivial flag => { c with punctuationTrivial := flag }
  | .members category kinds => c.addMembers category kinds
  | .containers category kinds => c.addContainers category kinds

/-- The classifier that the steps set up, starting from the empty one. -/
def ofSteps (steps : List Step) : Classifier := steps.foldl step empty

/-- A kind that is spelled without any letter or number. -/
def isPunctuation (kind : String) : Bool :=
  !kind.isEmpty && !kind.toList.any Text.isAlphanumeric

/-- The verdict on a kind: its own if it was decided, else trivial for anonymous nodes
and for punctuation where the classifier says so, else significant. -/
def verdict (c : Classifier) (kind : String) (named : Bool) : Verdict :=
  match c.verdicts.lookup kind with
  | some decided => decided
  | none =>
    if c.anonymousTrivial && !named then .trivial
    else if c.punctuationTrivial && isPunctuation kind then .trivial
    else .significant

/-- The number of kinds that were decided one by one. -/
def size (c : Classifier) : Nat := (c.verdicts.map Prod.fst).eraseDups.length

/-- A node with this label is a place to stop, as the view sees it. -/
def isSignificant (c : Classifier) (view : View) (label : Label) : Bool :=
  c.verdict label.kind (view.named label) == .significant

/-- A node belongs to a category by its kind, or as a significant child of a node whose
kind contains the category. -/
def belongs (c : Classifier) (view : View) (category : Category) (above : Option Label)
    (label : Label) : Bool :=
  c.members.contains (category, label.kind) ||
    match above with
    | some parent => c.containers.contains (category, parent.kind) && c.isSignificant view label
    | none => false

/-- Puts a text into a strictly ascending list of texts. -/
def insertSorted (text : String) : List String → List String
  | [] => [text]
  | first :: rest =>
    if text < first then text :: first :: rest
    else if text = first then first :: rest
    else first :: insertSorted text rest

/-- The kinds put into a category, ascending and each once. -/
def kindsOf (c : Classifier) (category : Category) : List String :=
  (c.members.filterMap fun (of, kind) => if of = category then some kind else none).foldr
    insertSorted []

end Classifier

end TreeNav
