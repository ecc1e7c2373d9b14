import BuildGraph.Text.Utf8

/-! Paths, and the files below a working directory.

A path is a row of names between slashes. Each name but the last must be that of a
directory; an empty name and a point stay there, and two points lead one up. Above and beside
the working directory there are directories, but nothing that can be found in them.
-/

set_option autoImplicit false

namespace BuildGraph

namespace Path

def slash : UInt8 := 47

/-- The names of a path, one more than it has slashes. -/
def names : Bytes → List Bytes
  | [] => [[]]
  | b :: rest =>
    if b = slash then [] :: names rest
    else
      match names rest with
      | [] => [[b]]
      | name :: more => (b :: name) :: more

def isAbsolute (path : Bytes) : Bool := path.head? == some slash

/-- A path seen from a directory. -/
def join (directory path : Bytes) : Bytes :=
  if isAbsolute path then path
  else if directory.getLast? = some slash then directory ++ path
  else directory ++ slash :: path

end Path

/-- Why a file cannot be read. -/
inductive ReadFault where
  | notFound
  | denied
  | notDirectory
  | isDirectory
  | nameTooLong
  | nulInName
  | notText
  | other (text : String)
  deriving DecidableEq, Repr

def ReadFault.text : ReadFault → String
  | notFound => "No such file or directory (os error 2)"
  | denied => "Permission denied (os error 13)"
  | notDirectory => "Not a directory (os error 20)"
  | isDirectory => "Is a directory (os error 21)"
  | nameTooLong => "File name too long (os error 36)"
  | nulInName => "file name contained an unexpected NUL byte"
  | notText => "stream did not contain valid UTF-8"
  | other text => text

/-- The files below the working directory, each with the names that lead to it. -/
structure FileTree where
  files : List (List Bytes × Bytes)
  deriving DecidableEq, Repr

namespace FileTree

/-- Where a path has led so far. -/
inductive Place where
  | below (names : List Bytes)
  | outside
  deriving DecidableEq, Repr

def here : Bytes := [46]

def up : Bytes := [46, 46]

def longestName : Nat := 255

def longestPath : Nat := 4095

/-- The tree of files that are given with their paths. -/
def ofList (files : List (Bytes × Bytes)) : FileTree :=
  ⟨files.map fun (path, content) =>
    ((Path.names path).filter fun name => name ≠ [] && name ≠ here, content)⟩

def content? (tree : FileTree) (names : List Bytes) : Option Bytes :=
  (tree.files.find? fun file => file.1 = names).map (·.2)

/-- Every start of the way to a file is a directory, and so is the working directory. -/
def isDirectory (tree : FileTree) (names : List Bytes) : Bool :=
  names.isEmpty
    || tree.files.any fun file => names.isPrefixOf file.1 && names.length < file.1.length

/-- Follow one name. -/
def step (tree : FileTree) (name : Bytes) : Place → Except ReadFault Place
  | .outside =>
    if name = [] ∨ name = here ∨ name = up then .ok .outside
    else if longestName < name.length then .error .nameTooLong
    else .error .notFound
  | .below names =>
    if !tree.isDirectory names then .error .notDirectory
    else if name = [] ∨ name = here then .ok (.below names)
    else if name = up then .ok (if names = [] then .outside else .below names.dropLast)
    else if longestName < name.length then .error .nameTooLong
    else if tree.isDirectory (names ++ [name]) || (tree.content? (names ++ [name])).isSome then
      .ok (.below (names ++ [name]))
    else .error .notFound

def walk (tree : FileTree) (place : Place) : List Bytes → Except ReadFault Place
  | [] => .ok place
  | name :: rest => do
    let next ← tree.step name place
    tree.walk next rest

/-- The content of the file with this path. -/
def read (tree : FileTree) (path : Bytes) : Except ReadFault Bytes :=
  if path.contains 0 then .error .nulInName
  else if path = [] then .error .notFound
  else if longestPath < path.length then .error .nameTooLong
  else do
    let start := if Path.isAbsolute path then Place.outside else .below []
    match ← tree.walk start (Path.names path) with
    | .outside => .error .isDirectory
    | .below names =>
      match tree.content? names with
      | some content => .ok content
      | none => .error .isDirectory

end FileTree

end BuildGraph
