/-
What the command line sees of the files.

* `FileError`: why a path cannot be read.
* `FileEntry`: what is found at a path.
* `FileStore`: everything that is found at paths.
* `joinPath`: the path of an entry of a directory.
* `FileTree.store`: the files and directories of a tree in memory.
-/

namespace Verdict

/-- Why a path cannot be read. -/
inductive FileError where
  | missing
  /-- Something on the way is no directory. -/
  | notDirectory
  | isDirectory
  /-- Another reason, in the words of the system. -/
  | other (reason : String)
  deriving DecidableEq, Repr

/-- The words of the system. -/
def FileError.message : FileError → String
  | missing => "No such file or directory (os error 2)"
  | notDirectory => "Not a directory (os error 20)"
  | isDirectory => "Is a directory (os error 21)"
  | other reason => reason

/-- What is found at a path. -/
inductive FileEntry where
  | file (contents : String)
  /-- A regular file whose text cannot be had, such as one that is not UTF-8. -/
  | illegible (reason : FileError)
  /-- A directory with the names of its entries, in the order of its listing. -/
  | directory (names : List String)
  | unreadable (reason : FileError)
  deriving DecidableEq, Repr

/-- What is found at each path. -/
abbrev FileStore : Type := String → FileEntry

namespace FileStore

/-- The text of a file. -/
def read (store : FileStore) (path : String) : Except FileError String :=
  match store path with
  | .file contents => .ok contents
  | .directory _ => .error .isDirectory
  | .illegible reason | .unreadable reason => .error reason

/-- The names of the entries of a directory; none if the path is none. -/
def entries? (store : FileStore) (path : String) : Option (List String) :=
  match store path with
  | .directory names => some names
  | _ => none

/-- Whether there is a regular file at the path. -/
def isFile (store : FileStore) (path : String) : Bool :=
  match store path with
  | .file _ | .illegible _ => true
  | _ => false

end FileStore

/-- The path of an entry of a directory. -/
def joinPath (directory name : String) : String :=
  if directory.endsWith "/" then directory ++ name else directory ++ "/" ++ name

/-! ### Trees in memory -/

/-- Files and directories by the names on the way to them. -/
structure FileTree where
  files : List (List String × String) := []
  directories : List (List String) := []

namespace FileTree

/-- The names in a path. -/
def names (path : String) : List String := path.splitOn "/"

/-- The directories of a tree: the top, those given, and those on the way to a
file or to one of them. -/
def isDirectory (tree : FileTree) (place : List String) : Bool :=
  place.isEmpty ||
    (tree.files.any fun (p, _) => place.length < p.length && place.isPrefixOf p) ||
    tree.directories.any place.isPrefixOf

/-- The names of the entries of a directory. -/
def listing (tree : FileTree) (place : List String) : List String :=
  ((tree.files.map Prod.fst ++ tree.directories).filterMap fun p =>
    if place.isPrefixOf p then p[place.length]? else none).eraseDups

/-- Walks along the names of a path from a place in the tree. -/
def walk (tree : FileTree) : List String → List String → Except FileError (List String)
  | place, [] => .ok place
  | place, name :: rest =>
    if tree.isDirectory place then
      if name = "" ∨ name = "." then walk tree place rest
      else if name = ".." then
        if place.isEmpty then .error .missing else walk tree place.dropLast rest
      else walk tree (place ++ [name]) rest
    else if (tree.files.lookup place).isSome then .error .notDirectory
    else .error .missing

/-- What is found in the tree at each path; an absolute path leads nowhere. -/
def store (tree : FileTree) : FileStore := fun path =>
  if path.startsWith "/" then .unreadable .missing
  else
    match tree.walk [] (names path) with
    | .error reason => .unreadable reason
    | .ok place =>
      if tree.isDirectory place then .directory (tree.listing place)
      else
        match tree.files.lookup place with
        | some contents => .file contents
        | none => .unreadable .missing

end FileTree
end Verdict
