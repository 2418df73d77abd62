import PackageAlgebra.Error
import PackageAlgebra.Text

/-!
# Files

A path that begins with a slash holds wherever it stands; any other is read from
some directory. A tree holds files at their locations, the names from the root
on. The directories are those on the way to a file and to the directory from
which relative paths are read.
-/

namespace PackageAlgebra.Path

def isAbsolute (path : String) : Bool :=
  path.toList.head? == some '/'

def names (path : String) : List (List Char) :=
  path.toList.splitOn '/'

def stay : List Char := ['.']

def up : List Char := ['.', '.']

/-- The last name on a path that is not void. A path that ends by going up has none. -/
def fileName? (path : String) : Option (List Char) :=
  match (names path).reverse.find? fun name => !name.isEmpty && name != stay with
  | some name => if name = up then none else some name
  | none => none

/-- Whether the file name ends in a point and the extension, with something before them. -/
def hasExtension (extension : String) (path : String) : Bool :=
  match (fileName? path).bind (Text.cutLast? '.') with
  | some (before, behind) => !before.isEmpty && behind == extension.toList
  | none => false

def directory (path : String) : String :=
  match Text.cutLast? '/' path.toList with
  | none => ""
  | some ([], _) => "/"
  | some (before, _) => String.ofList before

def join (directory path : String) : String :=
  if isAbsolute path || directory.isEmpty then path
  else if directory.toList.getLast? = some '/' then directory ++ path
  else directory ++ "/" ++ path

end PackageAlgebra.Path

namespace PackageAlgebra

/-- What reading a path comes to. -/
abbrev FileReader := String → Except FileError ByteArray

abbrev Location := List (List Char)

structure FileTree where
  current : Location
  files : List (Location × ByteArray)

namespace FileTree

def empty (current : Location) : FileTree :=
  ⟨current, []⟩

def isDirectory (tree : FileTree) (location : Location) : Bool :=
  location.isPrefixOf tree.current ||
    tree.files.any fun (file, _) => location.length < file.length && location.isPrefixOf file

def maxName : Nat := 255

def maxPath : Nat := 4095

def enter (directory : Location) (name : List Char) : Except FileError Location :=
  if name.isEmpty || name = Path.stay then .ok directory
  else if name = Path.up then .ok directory.dropLast
  else if maxName < (String.ofList name).utf8ByteSize then .error .nameTooLong
  else .ok (directory ++ [name])

/-- Follows names, each of which but the last has to name a directory. -/
def follow (tree : FileTree) (place : Location) : Location → Except FileError Location
  | [] => .ok place
  | name :: rest => do
    let place ← enter place name
    -- a place on the way has to be a directory, even if the next name goes up again
    if rest.isEmpty || tree.isDirectory place then tree.follow place rest
    else if (tree.files.lookup place).isSome then .error .notDirectory
    else .error .notFound

/-- The place that a path leads to. The last name on it need not be there. -/
def locate (tree : FileTree) (path : String) : Except FileError Location :=
  if path.isEmpty then .error .notFound
  else if path.toList.contains '\x00' then .error .invalidName
  else if maxPath < path.utf8ByteSize then .error .nameTooLong
  else tree.follow (if Path.isAbsolute path then [] else tree.current) (Path.names path)

def read (tree : FileTree) : FileReader := fun path => do
  let place ← tree.locate path
  match tree.files.lookup place with
  | some bytes => .ok bytes
  | none => .error (if tree.isDirectory place then .isDirectory else .notFound)

def insert (tree : FileTree) (location : Location) (bytes : ByteArray) : FileTree :=
  { tree with files := (location, bytes) :: tree.files.filter (·.1 != location) }

def write (tree : FileTree) (path : String) (bytes : ByteArray) : Except FileError FileTree := do
  let place ← tree.locate path
  let last := (Path.names path).getLast?.getD []
  if last.isEmpty || last = Path.stay || last = Path.up || tree.isDirectory place then
    .error .isDirectory
  else .ok (tree.insert place bytes)

/-- Writes a file and makes the directories on the way to it. -/
def create (tree : FileTree) (path : String) (bytes : ByteArray) : FileTree :=
  let start := if Path.isAbsolute path then [] else tree.current
  let place := (Path.names path).foldl
    (fun place name => (enter place name).toOption.getD place) start
  tree.insert place bytes

end FileTree

end PackageAlgebra
