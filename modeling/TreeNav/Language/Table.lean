import TreeNav.Classifier
import TreeNav.Language.Override
import TreeNav.Text.Unique
import TreeNav.Toml.Codec

/-!
Language tables: what is known of a language, as it is written down in a TOML file
(`from_toml`), the merging of a user's adjustments into it (`apply`) and the classifier
that it sets up (`classifier`). What the codec says of a file that holds no table is left
out.
-/
namespace TreeNav

/-- A language: its id and name, its file extensions, which kinds of node are trivial or
significant, which kinds make up each category, and in which kinds arguments are listed. -/
structure LanguageTable where
  id : String
  name : String
  extensions : List String := []
  anonymousTrivial : Bool := false
  punctuationTrivial : Bool := false
  trivial : List String := []
  significant : List String := []
  kinds : Category → List String := fun _ => []
  argumentLists : List String := []

namespace LanguageTable

/-- The extension without the dots that it begins with. -/
def bareExtension (extension : String) : String :=
  String.ofList (extension.toList.dropWhile (· == '.'))

/-- Takes a kind for trivial, whatever it was before. -/
def markTrivial (table : LanguageTable) (kind : String) : LanguageTable :=
  { table with
    significant := table.significant.filter (· != kind)
    trivial := Text.pushUnique table.trivial kind }

/-- Takes a kind for significant, whatever it was before. -/
def markSignificant (table : LanguageTable) (kind : String) : LanguageTable :=
  { table with
    trivial := table.trivial.filter (· != kind)
    significant := Text.pushUnique table.significant kind }

def addExtension (table : LanguageTable) (extension : String) : LanguageTable :=
  { table with extensions := Text.pushUnique table.extensions (bareExtension extension) }

/-- Makes the adjustments of an override: first its trivial kinds, then its significant
ones, then its extensions. -/
def apply (table : LanguageTable) (o : Override) : LanguageTable :=
  let table := o.trivial.foldl markTrivial table
  let table := o.significant.foldl markSignificant table
  o.extensions.foldl addExtension table

/-- The steps that set up the classifier of a language. A kind that is listed both as
trivial and as significant is significant. -/
def classifierSteps (table : LanguageTable) : List Classifier.Step :=
  [.anonymousTrivial table.anonymousTrivial,
    .punctuationTrivial table.punctuationTrivial,
    .kinds .trivial table.trivial,
    .kinds .significant table.significant,
    .containers .argument table.argumentLists] ++
  Category.all.map fun category => .members category (table.kinds category)

def classifier (table : LanguageTable) : Classifier := Classifier.ofSteps table.classifierSteps

/-- The key of the list of kinds in which arguments are listed. -/
def argumentListsKey : String := "argument_lists"

/-- The keys of the table of categories. -/
def categoryKeys : List String := Category.all.map Category.name ++ [argumentListsKey]

/-- The lists of kinds of a table of categories. -/
def readKinds? (v : Toml.Value) : Option ((Category → List String) × List String) := do
  let entries ← v.record? categoryKeys
  let lists ← Category.all.mapM fun category => do
    return (category, ← Toml.fieldOr entries category.name Toml.Value.texts? [])
  let argumentLists ← Toml.fieldOr entries argumentListsKey Toml.Value.texts? []
  return (fun category => (lists.lookup category).getD [], argumentLists)

/-- The language that a document describes. Only the id and the name have to be there. -/
def ofToml? (codec : Toml.Codec) (text : String) : Option LanguageTable := do
  let entries ← codec.read? text
  let (kinds, argumentLists) ←
    Toml.fieldOr entries "categories" readKinds? (fun _ => [], [])
  return {
    id := ← Toml.field entries "id" Toml.Value.text?
    name := ← Toml.field entries "name" Toml.Value.text?
    extensions := ← Toml.fieldOr entries "extensions" Toml.Value.texts? []
    anonymousTrivial := ← Toml.fieldOr entries "anonymous_trivial" Toml.Value.boolean? false
    punctuationTrivial := ← Toml.fieldOr entries "punctuation_trivial" Toml.Value.boolean? false
    trivial := ← Toml.fieldOr entries "trivial" Toml.Value.texts? []
    significant := ← Toml.fieldOr entries "significant" Toml.Value.texts? []
    kinds
    argumentLists }

end LanguageTable

end TreeNav
