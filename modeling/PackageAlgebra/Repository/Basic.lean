import PackageAlgebra.Files
import PackageAlgebra.Gzip
import PackageAlgebra.Json.Reader
import PackageAlgebra.Json.Writer
import PackageAlgebra.Package.Record.Attributes
import PackageAlgebra.Package.Record.Json
import PackageAlgebra.Query.Timeline

/-!
# Repositories

A repository is a named collection of package records with a priority, which its
packages share. A record that names no repository belongs to the one that holds
it. An index is a repository as a JSON document, compressed in a file whose name
ends in `.gz`.
-/

namespace PackageAlgebra

structure Repository where
  name : String
  priority : Int32
  packages : List PackageRecord
deriving DecidableEq, Repr

namespace Repository

def adopt (name : String) (priority : Int32) (r : PackageRecord) : PackageRecord :=
  { r with repository := some (r.repository.getD name), priority }

def ofRecords (name : String) (priority : Int32) (records : List PackageRecord) : Repository :=
  ⟨name, priority, records.map (adopt name priority)⟩

/-- Gives the repository another name, and with it the packages that carry its name. -/
def rename (r : Repository) (name : String) : Repository :=
  { r with
    name
    packages := r.packages.map fun p =>
      if p.repository = some r.name then { p with repository := some name } else p }

def timeline (r : Repository) : Timeline PackageRecord :=
  .ofPackages r.packages

end Repository

structure RepositoryStack where
  repositories : List Repository
deriving DecidableEq, Repr

namespace RepositoryStack

def empty : RepositoryStack :=
  ⟨[]⟩

def push (stack : RepositoryStack) (r : Repository) : RepositoryStack :=
  ⟨stack.repositories ++ [r]⟩

/-- The first repository with this name. -/
def get? (stack : RepositoryStack) (name : String) : Option Repository :=
  stack.repositories.find? (·.name == name)

def packages (stack : RepositoryStack) : List PackageRecord :=
  stack.repositories.flatMap (·.packages)

@[simp] theorem packages_push (stack : RepositoryStack) (r : Repository) :
    (stack.push r).packages = stack.packages ++ r.packages := by
  simp [push, packages]

def timeline (stack : RepositoryStack) : Timeline PackageRecord :=
  .ofPackages stack.packages

end RepositoryStack

structure RepositoryIndex where
  name : String
  packages : List PackageRecord
deriving DecidableEq, Repr

namespace RepositoryIndex

def toJson (index : RepositoryIndex) : Json :=
  .record [("name", .text index.name),
    ("packages", .array (index.packages.map PackageRecord.toJson))]

def ofJson? (j : Json) : Option RepositoryIndex := do
  let field ← j.fields? ["name", "packages"]
  let name ← Json.required Json.text? (field "name")
  let packages ← Json.defaulted (Json.list? PackageRecord.ofJson?) [] (field "packages")
  return ⟨name, packages⟩

def ofString? (text : String) : Option RepositoryIndex :=
  (Json.ofString? text).bind ofJson?

def ofFile? (path : String) (bytes : ByteArray) : Option RepositoryIndex :=
  let document? :=
    if Path.hasExtension "gz" path then (Gzip.expand? bytes.toList).map (ByteArray.mk ·.toArray)
    else some bytes
  (document?.bind Json.ofBytes?).bind ofJson?

end RepositoryIndex

namespace Repository

def ofIndex (index : RepositoryIndex) (priority : Int32) : Repository :=
  ofRecords index.name priority index.packages

def index (r : Repository) : RepositoryIndex :=
  ⟨r.name, r.packages⟩

def document (r : Repository) : String :=
  r.index.toJson.indented

/-- Writes the index to a path, uncompressed whatever the path is called. -/
def save (r : Repository) (tree : FileTree) (path : String) : Except Error FileTree :=
  (tree.write path r.document.toUTF8).mapError .file

/-- Loads the index at a path. A directory opens like a file, but there is no index in it. -/
def load (files : FileReader) (path : String) (priority : Int32) : Except Error Repository :=
  match files path with
  | .error .isDirectory => .error .json
  | .error e => .error (.file e)
  | .ok bytes =>
    match RepositoryIndex.ofFile? path bytes with
    | some index => .ok (ofIndex index priority)
    | none => .error .json

end Repository

end PackageAlgebra
