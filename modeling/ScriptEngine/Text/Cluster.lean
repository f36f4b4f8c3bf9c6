import ScriptEngine.Text.ClusterClass

/-!
# Clusters

A text falls into clusters, the characters as a reader counts them.  The text
is cut between two characters unless a rule keeps them together: a letter and
its accents, the letters of a Hangul syllable, the two letters of a flag,
pictographs that are joined, and consonants that are linked.  The last three
rules look further back than one character, so the cutter carries a summary of
what came before.

Cutting loses nothing: the clusters of a text joined together are the text
(`flatten_clusters`).
-/

namespace ScriptEngine.Text

/-- How far a chain of joined pictographs has come. -/
inductive PictographChain where
  | none
  /-- A pictograph, possibly extended. -/
  | pictograph
  /-- A pictograph and a joiner. -/
  | joined
deriving Repr, DecidableEq

namespace PictographChain

/-- The chain after one more character. -/
def next : PictographChain → ClusterClass → PictographChain
  | _, .pictograph => pictograph
  | pictograph, .extending | pictograph, .linker | pictograph, .nonJoiner => pictograph
  | pictograph, .joiner => joined
  | _, _ => none

end PictographChain

/-- How far a conjunct of consonants has come. -/
inductive Conjunct where
  | none
  /-- A consonant, possibly extended. -/
  | consonant
  /-- A consonant and a linker, possibly extended. -/
  | linked
deriving Repr, DecidableEq

namespace Conjunct

/-- The conjunct after one more character. -/
def next : Conjunct → ClusterClass → Conjunct
  | _, .consonant => consonant
  | consonant, .linker | linked, .linker => linked
  | conjunct, .extending | conjunct, .joiner => conjunct
  | _, _ => none

end Conjunct

/-- What has to be known of the characters before a possible cut. -/
structure ClusterContext where
  /-- The class of the last character. -/
  last : ClusterClass
  chain : PictographChain
  conjunct : Conjunct
  /-- Whether the text ends in an odd number of letters of flags. -/
  halfFlag : Bool
deriving Repr, DecidableEq

namespace ClusterContext

/-- The context after the first character of a text. -/
def start (first : ClusterClass) : ClusterContext where
  last := first
  chain := PictographChain.none.next first
  conjunct := Conjunct.none.next first
  halfFlag := first == .regional

/-- The context after one more character. -/
def next (context : ClusterContext) (character : ClusterClass) : ClusterContext where
  last := character
  chain := context.chain.next character
  conjunct := context.conjunct.next character
  halfFlag := character == .regional && !context.halfFlag

/-- Whether a character belongs to the cluster before it. -/
def keeps (context : ClusterContext) (character : ClusterClass) : Bool :=
  if context.last.isControl || character.isControl then
    context.last == .carriageReturn && character == .lineFeed
  else
    character.attaches
      || context.last == .prepended
      || context.last.formsSyllable character
      || (character == .consonant && context.conjunct == .linked)
      || (character == .pictograph && context.chain == .joined)
      || (character == .regional && context.halfFlag)

end ClusterContext

/--
The clusters of characters that follow others; `cluster` holds the characters
of the last cluster so far, last first.
-/
def clustersFrom (context : ClusterContext) (cluster : List Char) :
    List Char → List (List Char)
  | [] => [cluster.reverse]
  | character :: rest =>
    let kind := ClusterClass.ofChar character
    if context.keeps kind then
      clustersFrom (context.next kind) (character :: cluster) rest
    else
      cluster.reverse :: clustersFrom (context.next kind) [character] rest

/-- The clusters of a text. -/
def clusters : List Char → List (List Char)
  | [] => []
  | character :: rest =>
    clustersFrom (ClusterContext.start (ClusterClass.ofChar character)) [character] rest

@[simp]
theorem clusters_nil : clusters [] = [] := rfl

theorem flatten_clustersFrom
    (context : ClusterContext)
    (cluster text : List Char) :
    (clustersFrom context cluster text).flatten = cluster.reverse ++ text := by
  induction text generalizing context cluster with
  | nil => simp [clustersFrom]
  | cons character rest hypothesis =>
      unfold clustersFrom
      dsimp only
      split
      · simp [hypothesis]
      · simp [hypothesis]

/-- The clusters of a text joined together are the text. -/
@[simp]
theorem flatten_clusters (text : List Char) : (clusters text).flatten = text := by
  cases text with
  | nil => rfl
  | cons character rest => simp [clusters, flatten_clustersFrom]

theorem ne_nil_of_mem_clustersFrom
    {context : ClusterContext}
    {cluster text member : List Char}
    (begun : cluster ≠ [])
    (membership : member ∈ clustersFrom context cluster text) :
    member ≠ [] := by
  induction text generalizing context cluster with
  | nil => simp_all [clustersFrom]
  | cons character rest hypothesis =>
      unfold clustersFrom at membership
      dsimp only at membership
      split at membership
      · exact hypothesis (by simp) membership
      · rcases List.mem_cons.1 membership with equality | later
        · simp [equality, begun]
        · exact hypothesis (by simp) later

/-- No cluster is empty. -/
theorem ne_nil_of_mem_clusters
    {text member : List Char}
    (membership : member ∈ clusters text) :
    member ≠ [] := by
  cases text with
  | nil => simp at membership
  | cons character rest => exact ne_nil_of_mem_clustersFrom (by simp) membership

end ScriptEngine.Text
