import ScriptEngine.Text.Bytes
import ScriptEngine.Text.Cluster

/-!
# Corrections

A line may contain backspaces.  Each of them takes away the cluster before it,
and itself; one at the beginning of a line takes away nothing else.  A line
without backspaces stays as it is (`writeAll_clusters`).
-/

namespace ScriptEngine.Shell

/-- The character that takes away the cluster before it. -/
def backspace : Char := '\x08'

/-- A line while its clusters are written one after the other. -/
structure LineDraft where
  /-- The characters of the line, last first. -/
  characters : List Char := []
  /-- How many bytes a backspace takes away for each cluster, last first. -/
  sizes : List Nat := []
deriving Repr, DecidableEq

namespace LineDraft

/-- The number of sizes that are told apart. -/
def sizeBound : Nat := 256

/-- Takes characters away until as many bytes are gone. -/
def dropBytes : List Char → Nat → List Char
  | characters, 0 => characters
  | [], _ => []
  | character :: rest, bytes => dropBytes rest (bytes - character.utf8Size)

/--
Takes away the last cluster.  Its size is known in one byte only, so of a
cluster with more bytes the beginning remains.
-/
def erase (line : LineDraft) : LineDraft :=
  match line.sizes with
  | [] => line
  | size :: sizes => { characters := dropBytes line.characters size, sizes }

/-- Adds a cluster. -/
def append (line : LineDraft) (cluster : List Char) : LineDraft where
  characters := cluster.reverse ++ line.characters
  sizes := Text.byteLength cluster % sizeBound :: line.sizes

/-- Writes a cluster, or takes one away. -/
def write (line : LineDraft) (cluster : List Char) : LineDraft :=
  if cluster = [backspace] then line.erase else line.append cluster

/-- Writes clusters. -/
def writeAll (line : LineDraft) (clusters : List (List Char)) : LineDraft :=
  clusters.foldl write line

/-- The characters of the line. -/
def text (line : LineDraft) : List Char :=
  line.characters.reverse

@[simp]
theorem text_append
    (line : LineDraft)
    (cluster : List Char) :
    (line.append cluster).text = line.text ++ cluster := by
  simp [append, text]

theorem text_writeAll
    (line : LineDraft)
    (clusters : List (List Char))
    (absent : [backspace] ∉ clusters) :
    (line.writeAll clusters).text = line.text ++ clusters.flatten := by
  induction clusters generalizing line with
  | nil => simp [writeAll]
  | cons cluster rest hypothesis =>
      have here : cluster ≠ [backspace] := fun equality => absent (by simp [equality])
      have later : [backspace] ∉ rest := fun membership => absent (by simp [membership])
      have step := hypothesis (line.append cluster) later
      simp only [writeAll] at step
      simp [writeAll, write, here, step]

/-- Writing the clusters of a text without backspaces gives the text. -/
theorem writeAll_clusters
    (line : List Char)
    (absent : backspace ∉ line) :
    (({} : LineDraft).writeAll (Text.clusters line)).text = line := by
  have alone : [backspace] ∉ Text.clusters line := by
    intro membership
    apply absent
    rw [← Text.flatten_clusters line]
    exact List.mem_flatten.2 ⟨_, membership, by simp⟩
  rw [text_writeAll _ _ alone, Text.flatten_clusters]
  rfl

end LineDraft

/-- A text in which all backspaces have been carried out. -/
def correct (text : String) : String :=
  let characters := text.toList
  if characters.contains backspace then
    String.ofList (({} : LineDraft).writeAll (Text.clusters characters)).text
  else
    text

end ScriptEngine.Shell
