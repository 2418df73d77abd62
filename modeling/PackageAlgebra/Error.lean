import PackageAlgebra.Depend.Parser

/-!
# Errors

Everything that can go wrong when packages are loaded and asked for, and how it
is worded.
-/

namespace PackageAlgebra

inductive SetQuestion
  | best
  | select
  | get
deriving DecidableEq, Repr

/-- How a set falls short: it is empty, or it holds more packages than it may. -/
inductive SetFault
  | empty
  | ambiguous
deriving DecidableEq, Repr

def SetFault.reason : SetFault → SetQuestion → String
  | .empty, .best => ".best called on an empty set"
  | .empty, .select => "No packages match the filters."
  | .empty, .get => "No packages match the filter."
  | .ambiguous, .best => ".best called on a set of differently-named packages"
  | .ambiguous, .select => "Ambiguous filter (matches more than a single package name)."
  | .ambiguous, .get => "Filter matches more than one package."

inductive ConfigError
  | emptyName (text : String)
  | missingPath (text : String)
  | noRepositories
  | malformed (path : String)
deriving DecidableEq, Repr

def ConfigError.reason : ConfigError → String
  | .emptyName text => s!"empty repository name in '{text}'"
  | .missingPath text => s!"missing repository path in '{text}'"
  | .noRepositories => "no repositories configured"
  | .malformed path => path

inductive FileError
  | notFound
  | isDirectory
  | notDirectory
  | invalidName
  | nameTooLong
  | notText
  | unreadable
deriving DecidableEq, Repr

def FileError.reason : FileError → String
  | .notFound => "no such file or directory"
  | .isDirectory => "is a directory"
  | .notDirectory => "not a directory"
  | .invalidName => "invalid file name"
  | .nameTooLong => "file name too long"
  | .notText => "the file is not valid UTF-8"
  | .unreadable => "the file cannot be read"

inductive Error
  | set (fault : SetFault) (question : SetQuestion)
  | attributeNotFound (name : String) (key : PackageKey)
  | expression (e : ExpressionError)
  | badPattern (pattern : String)
  | atom (e : AtomError)
  | version (e : VersionError)
  | config (e : ConfigError)
  | file (e : FileError)
  | json
deriving DecidableEq, Repr

def Error.message : Error → String
  | .set .empty question => s!"Empty package set: {SetFault.reason .empty question}"
  | .set .ambiguous question => s!"Ambiguous package set: {SetFault.reason .ambiguous question}"
  | .attributeNotFound name key => s!"Attribute not found: no attribute '{name}' on package {key}"
  | .expression e => e.message
  | .badPattern pattern => s!"Invalid dependency expression: bad regex '{pattern}'"
  | .atom e => e.message
  | .version e => e.message
  | .config e => s!"Configuration error: {e.reason}"
  | .file e => s!"I/O error: {e.reason}"
  | .json => "JSON error"

end PackageAlgebra
