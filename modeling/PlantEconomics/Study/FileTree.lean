import PlantEconomics.Study.Run

/-!
# Files by their paths

A file tree holds files by the names on the way to them, directories that need not hold any, and the
directory that relative paths start from. A path is walked name by name: an empty name and a point
stay, two points go up, any other name has to be that of a directory, or of a file if it is the last
one. A directory can be opened, and only its content cannot be read.

`FileTree.content` says what a path holds; `FileTree.settings?` finds the document of settings, in
the current directory or in one above it.
-/

namespace PlantEconomics

/-- Files and directories, each by its names from the root, and the current directory. -/
structure FileTree where
  current : List String
  directories : List (List String)
  files : List (List String × List UInt8)

namespace FileTree

/-! ## §1. Limits -/

/-- The bytes that a path may have, with the null byte that ends it. -/
def pathLimit : Nat := 4096

/-- The bytes that a name may have. -/
def nameLimit : Nat := 255

/-! ## §2. Walking -/

/-- Whether names lead to a directory: the current one, one that is given, or one on the way to
these or to a file. -/
def isDirectory (t : FileTree) (path : List String) : Bool :=
  (t.current :: t.directories).any path.isPrefixOf ||
    t.files.any fun f => path.isPrefixOf f.1 && path.length < f.1.length

/-- What names lead to from a directory. -/
def walk (t : FileTree) (directory : List String) :
    List String → Except Csv.FileFault (List UInt8)
  | [] => .error .isDirectory
  | name :: rest =>
    let path := directory ++ [name]
    if name.isEmpty || name == "." then t.walk directory rest
    else if name == ".." then t.walk directory.dropLast rest
    else if nameLimit < name.utf8ByteSize then .error .nameTooLong
    else
      match t.files.lookup path with
      | some bytes => if rest.isEmpty then .ok bytes else .error .notDirectory
      | none => if t.isDirectory path then t.walk path rest else .error .notFound

/-- What a path leads to. -/
def find (t : FileTree) (path : String) : Except Csv.FileFault (List UInt8) :=
  if path.toList.contains '\x00' then .error .nullInName
  else if path.isEmpty then .error .notFound
  else if pathLimit ≤ path.utf8ByteSize then .error .nameTooLong
  else t.walk (if path.toList.head? == some '/' then [] else t.current) (path.splitOn "/")

/-! ## §3. Contents -/

/-- The fault of a path that holds nothing to read. -/
def fault : Csv.FileFault → Fault Float
  | .isDirectory => .csv (.unreadable .isDirectory)
  | cause => .file cause

/-- What a path holds. -/
def content (t : FileTree) : Files := fun path => (t.find path).mapError fault

/-- The way to the document of settings from the directory that it belongs to. -/
def settingsNames : List String := settingsPath.splitOn "/"

/-- The document of settings of the nearest directory from the current one upwards that has one. -/
def settings? (t : FileTree) : Option (List UInt8) :=
  (List.range (t.current.length + 1)).reverse.findSome? fun depth =>
    t.files.lookup (t.current.take depth ++ settingsNames)

end FileTree

end PlantEconomics
