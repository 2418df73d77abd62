import PackageAlgebra.Error
import PackageAlgebra.Json.Basic
import PackageAlgebra.Repository.Basic
import PackageAlgebra.Text

/-!
# Configurations of a stack

An entry says where the index of a repository lies; as text it is
`NAME=PATH:PRIORITY`, where only the path has to be there. A configuration lists
the entries of a stack from the bottom to the top. A repository without a
priority has its position for one.
-/

namespace PackageAlgebra

structure RepositoryEntry where
  name : Option String
  path : String
  priority : Option Int32
deriving DecidableEq, Repr

namespace RepositoryEntry

/-- Takes the priority off the end; what is no priority belongs to the path. -/
def splitPriority (cs : List Char) : List Char × Option Int32 :=
  match Text.cutLast? ':' cs with
  | none => (cs, none)
  | some (path, behind) =>
    match Text.int32? behind with
    | some priority => (path, some priority)
    | none => (cs, none) -- the colon is part of the path

def parse (text : String) : Except ConfigError RepositoryEntry :=
  let located (name : Option String) (rest : List Char) :=
    match splitPriority rest with
    | ([], _) => .error (.missingPath text)
    | (path, priority) => .ok ⟨name, String.ofList path, priority⟩
  match Text.cutFirst? ['='] text.toList with
  | none => located none text.toList
  | some ([], _) => .error (.emptyName text)
  | some (name, rest) => located (some (String.ofList name)) rest

/-- Reads a whole number of 32 bits. A zero with a sign is no whole number. -/
def priorityOfJson? : Json → Option Int32
  | .number text => if text = "-0" then none else Text.int32? text.toList
  | _ => none

def ofJson? (j : Json) : Option RepositoryEntry := do
  let field ← j.fields? ["name", "path", "priority"]
  let name ← Json.defaulted (Json.option? Json.text?) none (field "name")
  let path ← Json.required Json.text? (field "path")
  let priority ← Json.defaulted (Json.option? priorityOfJson?) none (field "priority")
  return ⟨name, path, priority⟩

end RepositoryEntry

structure StackConfig where
  entries : List RepositoryEntry
  directory : Option String
deriving DecidableEq, Repr

/-- A repository to be loaded: where its index lies, and what the entry says of it. -/
structure Source where
  path : String
  priority : Int32
  name : Option String
deriving DecidableEq, Repr

def Source.load (files : FileReader) (s : Source) : Except Error Repository := do
  let r ← Repository.load files s.path s.priority
  match s.name with
  | some name => return r.rename name
  | none => return r

namespace StackConfig

def ofEntries (entries : List RepositoryEntry) : StackConfig :=
  ⟨entries, none⟩

def ofJson? (j : Json) : Option (List RepositoryEntry) := do
  let field ← j.fields? ["repositories"]
  Json.defaulted (Json.list? RepositoryEntry.ofJson?) [] (field "repositories")

def load (files : FileReader) (path : String) : Except Error StackConfig := do
  let bytes ← (files path).mapError .file
  match String.fromUTF8? bytes with
  | none => .error (.file .notText)
  | some text =>
    match (Json.ofString? text).bind ofJson? with
    | none => .error (.config (.malformed path))
    | some entries => return ⟨entries, some (Path.directory path)⟩

def extend (config : StackConfig) (entries : List RepositoryEntry) : StackConfig :=
  { config with entries := config.entries ++ entries }

def resolvePath (config : StackConfig) (path : String) : String :=
  match config.directory with
  | some directory => Path.join directory path
  | none => path

def sources (config : StackConfig) : List Source :=
  config.entries.zipIdx.map fun (entry, position) =>
    ⟨config.resolvePath entry.path, entry.priority.getD (Int32.ofNat position), entry.name⟩

def buildStack (files : FileReader) (config : StackConfig) : Except Error RepositoryStack :=
  if config.entries.isEmpty then .error (.config .noRepositories)
  else (config.sources.mapM (Source.load files)).map RepositoryStack.mk

end StackConfig

end PackageAlgebra
