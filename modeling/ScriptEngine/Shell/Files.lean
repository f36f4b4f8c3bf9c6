import ScriptEngine.Shell.Path

/-!
# Files

What the shell can read.  A source of files answers a path with the content of
a file or with the reason why there is none.

A file system is such a source.  It holds a tree of files below the current
directory and a second one below the root.  Of the directories above the
current one nothing is known but that they exist.
-/

namespace ScriptEngine.Shell

/-- Why a file cannot be read. -/
inductive FileProblem where
  | missing
  | isDirectory
  | notDirectory
  | tooLong
  /-- The path contains the character that ends texts elsewhere. -/
  | containsNull
  /-- The content is not the UTF-8 form of a text. -/
  | notText
deriving Repr, DecidableEq

/-- The wording of a problem with a file. -/
def FileProblem.message : FileProblem → String
  | missing => "No such file or directory (os error 2)"
  | isDirectory => "Is a directory (os error 21)"
  | notDirectory => "Not a directory (os error 20)"
  | tooLong => "File name too long (os error 36)"
  | containsNull => "file name contained an unexpected NUL byte"
  | notText => "stream did not contain valid UTF-8"

/-- The content of the file at a path. -/
abbrev FileSource := String → Except FileProblem String

/-- Number of bytes in the longest name of a file. -/
def longestName : Nat := 255

/-- Number of bytes in the longest path. -/
def longestPath : Nat := 4095

/-- Files and directories by their names from the top of the tree. -/
structure FileTree where
  files : List (List String × String)
  /-- Directories that need not contain a file. -/
  directories : List (List String) := []

namespace FileTree

/-- A tree without files. -/
def empty : FileTree where
  files := []

/-- A tree of files given by their paths. -/
def ofPaths (files : List (String × String)) : FileTree where
  files := files.map fun (path, content) => ((Path.ofText path).names, content)

/-- The content of a file. -/
def file? (tree : FileTree) (names : List String) : Option String :=
  (tree.files.find? fun entry => entry.1 == names).map Prod.snd

/-- Whether names lead to the top, to a directory or to the directory of a file. -/
def isDirectory (tree : FileTree) (names : List String) : Bool :=
  names.isEmpty || tree.directories.contains names || tree.files.any fun entry =>
    names.isPrefixOf entry.1 && names.length < entry.1.length

end FileTree

/-- The parts of a file system. -/
inductive Region where
  /-- The current directory and what is below it. -/
  | working
  /-- The directories above the current one. -/
  | above
  /-- The root and what is below it. -/
  | root
deriving Repr, DecidableEq

/-- Where the parent of the top of a region is. -/
def Region.outer : Region → Region
  | working | above => above
  | root => root

/-- A file or directory by its names from the top of a region. -/
structure Location where
  region : Region
  names : List String
deriving Repr, DecidableEq

/-- The files that can be read. -/
structure FileSystem where
  /-- The files below the current directory. -/
  working : FileTree
  /-- The files below the root. -/
  root : FileTree

namespace FileSystem

/-- Where the standard input can be read like a file. -/
def inputLocation : Location where
  region := .root
  names := ["dev", "stdin"]

/-- The directories that are found below every root. -/
def rootDirectories : List String :=
  ["bin", "boot", "dev", "etc", "home", "lib", "media", "mnt", "opt", "proc", "root", "run",
    "sbin", "srv", "sys", "tmp", "usr", "var"]

/-- A root with the usual directories, an empty device and a standard input. -/
def rootTree (input : String) : FileTree where
  files := [(["dev", "null"], ""), (inputLocation.names, input)]
  directories := rootDirectories.map fun name => [name]

/-- A file system with files below the current directory, given by their paths. -/
def ofPaths (files : List (String × String)) : FileSystem where
  working := .ofPaths files
  root := rootTree ""

/-- The file system with a text at the standard input. -/
def withInput (system : FileSystem) (input : String) : FileSystem :=
  { system with root := rootTree input }

/-- The tree of a region. -/
def tree (system : FileSystem) : Region → FileTree
  | .working => system.working
  | .above => .empty
  | .root => system.root

/-- Follows names from a place in a region, given with the innermost name first. -/
def follow (system : FileSystem) :
    Region → List String → List String → Except FileProblem Location
  | region, place, [] => .ok { region, names := place.reverse }
  | region, place, name :: rest =>
    if (system.tree region).isDirectory place.reverse then
      if name = parentName then
        match place with
        | [] => follow system region.outer [] rest
        | _ :: outer => follow system region outer rest
      else if longestName < name.utf8ByteSize then
        .error .tooLong
      else
        follow system region (name :: place) rest
    else if ((system.tree region).file? place.reverse).isSome then
      .error .notDirectory
    else
      .error .missing

/-- Where a path leads. -/
def locate (system : FileSystem) (text : String) : Except FileProblem Location :=
  let path := Path.ofText text
  if text.toList.contains '\x00' then .error .containsNull
  else if text.isEmpty then .error .missing
  else if longestPath < text.utf8ByteSize then .error .tooLong
  else system.follow (if path.isAbsolute then .root else .working) [] path.names

/-- Whether a path leads to the standard input. -/
def isInput (system : FileSystem) (text : String) : Bool :=
  match system.locate text with
  | .ok location => location == inputLocation
  | .error _ => false

/-- The content of the file at a path. -/
def read (system : FileSystem) : FileSource := fun text => do
  let location ← system.locate text
  let tree := system.tree location.region
  if tree.isDirectory location.names then
    throw .isDirectory
  match tree.file? location.names with
  | none => throw .missing
  | some content => if (Path.ofText text).isDirectory then throw .notDirectory else return content

end FileSystem

end ScriptEngine.Shell
