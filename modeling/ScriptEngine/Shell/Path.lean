/-!
# Paths

A path is kept as the parts of its text between separators, so that its text
can be written again as it was (`toText_ofText`).  Its names are the parts that
lead somewhere else: a part that is empty or a single full stop means the
directory before it.
-/

namespace ScriptEngine.Shell

/-- The name of the parent directory. -/
def parentName : String := ".."

/-- A path to a file or a directory. -/
structure Path where
  /-- The texts between the separators. -/
  parts : List String
deriving Repr, DecidableEq

namespace Path

/-- The parts of characters between separators. -/
def splitAt (separator : Char) : List Char → List (List Char)
  | [] => [[]]
  | character :: rest =>
    if character = separator then
      [] :: splitAt separator rest
    else
      match splitAt separator rest with
      | [] => [[character]]
      | part :: parts => (character :: part) :: parts

/-- Reads a path. -/
def ofText (text : String) : Path where
  parts := (splitAt '/' text.toList).map String.ofList

/-- Writes a path. -/
def toText (path : Path) : String :=
  String.ofList (['/'].intercalate (path.parts.map String.toList))

/-- The path without text. -/
def empty : Path where
  parts := [""]

/-- The current directory. -/
def current : Path where
  parts := ["."]

/-- The root directory. -/
def root : Path where
  parts := ["", ""]

/-- Whether a part of a path stands for the directory before it. -/
def isStay (part : String) : Bool :=
  part == "" || part == "."

/-- Whether the path begins at the root. -/
def isAbsolute (path : Path) : Bool :=
  match path.parts with
  | "" :: _ :: _ => true
  | _ => false

/-- The names on the way to the file or directory. -/
def names (path : Path) : List String :=
  path.parts.filter fun part => !isStay part

/-- Whether the text of the path can only mean a directory. -/
def isDirectory (path : Path) : Bool :=
  path.parts.getLast?.any isStay

/-- The parts up to the last name. -/
def trimParts (parts : List String) : List String :=
  (parts.reverse.dropWhile isStay).reverse

/-- The directory of a path; there is none for the root and for the empty path. -/
def parent? (path : Path) : Option Path :=
  if path.names.isEmpty then
    if path.parts.head? == some "." then some empty else none
  else
    match trimParts (trimParts path.parts).dropLast with
    | [] =>
      if path.isAbsolute then some root
      else if path.parts.head? == some "." then some current
      else some empty
    | parts => some { parts }

/-- A path seen from a directory; a path from the root stays as it is. -/
def join (base path : Path) : Path :=
  if path.isAbsolute then path
  else if base.parts.getLast? == some "" then { parts := base.parts.dropLast ++ path.parts }
  else { parts := base.parts ++ path.parts }

/-- The characters before the last full stop, all if there is none after the first character. -/
def stem (name : List Char) : List Char :=
  match name.reverse.dropWhile (· != '.') with
  | [] | [_] => name
  | _ :: before => before.reverse

/-- A file name with its extension replaced. -/
def nameWithExtension (extension name : String) : String :=
  String.ofList (stem name.toList) ++ "." ++ extension

/-- A path whose last name has its extension replaced, if that is the name of a file. -/
def withExtension (path : Path) (extension : String) : Path :=
  let parts := trimParts path.parts
  match parts.getLast? with
  | none => path
  | some name =>
    if name = parentName then path
    else { parts := parts.dropLast ++ [nameWithExtension extension name] }

theorem splitAt_ne_nil
    (separator : Char)
    (characters : List Char) :
    splitAt separator characters ≠ [] := by
  cases characters with
  | nil => simp [splitAt]
  | cons character rest =>
      unfold splitAt
      split
      · simp
      · split <;> simp

/-- Joining the parts of a text with the separator gives the text. -/
theorem intercalate_splitAt
    (separator : Char)
    (characters : List Char) :
    [separator].intercalate (splitAt separator characters) = characters := by
  induction characters with
  | nil => rfl
  | cons character rest hypothesis =>
      unfold splitAt
      cases parts : splitAt separator rest with
      | nil => exact absurd parts (splitAt_ne_nil separator rest)
      | cons part others =>
          rw [parts] at hypothesis
          by_cases equality : character = separator
          · rw [if_pos equality]
            cases others <;>
              simp_all [List.intercalate, List.intersperse]
          · rw [if_neg equality]
            cases others <;>
              simp_all [List.intercalate, List.intersperse]

/-- A path is written as it was read. -/
@[simp]
theorem toText_ofText (text : String) : (ofText text).toText = text := by
  simp [ofText, toText, List.map_map, Function.comp_def, intercalate_splitAt]

end Path

/-- The extension of files with modules. -/
def moduleExtension : String := "crv"

/-- The file of a module that is imported by scripts of a directory. -/
def modulePath (directory : Path) (name : String) : Path :=
  (directory.join (Path.ofText name)).withExtension moduleExtension

end ScriptEngine.Shell
