import PackageAlgebra.Depend.Parser
import PackageAlgebra.Package.Basic
import PackageAlgebra.Package.Record.Basic

/-!
# Attributes of a record

Dependencies and other specifications are kept as text. Every field of a record
is an attribute; fields with parts have a path for each part. The paths below
`metadata` are the names of its variables, whatever they are.
-/

namespace PackageAlgebra

inductive DependencyClass
  | build
  | cbuildBuild
  | run
  | post
deriving DecidableEq, Repr

namespace PackageRecord

/-- What the build host needs is what the build needs, unless it is given. -/
def dependencyText (r : PackageRecord) : DependencyClass → String
  | .build => r.buildDependencies
  | .cbuildBuild => r.cbuildBuildDependencies.getD r.buildDependencies
  | .run => r.runDependencies
  | .post => r.postDependencies

def isApplied (r : PackageRecord) (flag : String) : Bool :=
  r.appliedUse.contains flag

def dependencies (r : PackageRecord) (c : DependencyClass) :
    Except ExpressionError (DepSet Atom) :=
  DepSet.parse (r.dependencyText c)

def evaluatedDependencies (r : PackageRecord) (c : DependencyClass) :
    Except ExpressionError (DepSet Atom) :=
  (r.dependencies c).map (DepSet.withoutConditionals r.isApplied)

def licenseSpec (r : PackageRecord) : Except ExpressionError (DepSet String) :=
  DepSet.parse r.license

def requiredUseSpec (r : PackageRecord) : Except ExpressionError (DepSet String) :=
  DepSet.parse r.requiredUse

def restrictSpec (r : PackageRecord) : Except ExpressionError (DepSet String) :=
  DepSet.parse r.restrict

def propertiesSpec (r : PackageRecord) : Except ExpressionError (DepSet String) :=
  DepSet.parse r.properties

def identity (r : PackageRecord) : Identity where
  key := r.key
  version := r.version
  slot := r.slot
  subslot := r.subslot.getD r.slot
  repository := r.repository
  priority := r.priority

def flagNames (r : PackageRecord) (keep : UseFlag → Bool) : Value :=
  .texts ((r.useFlags.filter keep).map (·.name))

def attributes : List (String × (PackageRecord → Value)) :=
  [("path", fun r => .ofOption r.path),
    ("eapi", fun r => .text r.eapi),
    ("description", fun r => .text r.description.short),
    ("description.short", fun r => .text r.description.short),
    ("description.long", fun r => .ofOption r.description.long),
    ("homepages", fun r => .texts r.homepages),
    ("keywords", fun r => .texts r.keywords),
    ("inherits", fun r => .texts r.inherits),
    ("use", fun r => r.flagNames fun _ => true),
    ("use.enabled", fun r => r.flagNames (·.enabled)),
    ("use.disabled", fun r => r.flagNames (!·.enabled)),
    ("use.default_enabled", fun r => r.flagNames (·.default == some true)),
    ("use.default_disabled", fun r => r.flagNames (·.default == some false)),
    ("applied_use", fun r => .texts r.appliedUse),
    ("license", fun r => .text r.license),
    ("restrict", fun r => .text r.restrict),
    ("properties", fun r => .text r.properties),
    ("required_use", fun r => .text r.requiredUse),
    ("build_dependencies", fun r => .text (r.dependencyText .build)),
    ("cbuild_build_dependencies", fun r => .text (r.dependencyText .cbuildBuild)),
    ("run_dependencies", fun r => .text (r.dependencyText .run)),
    ("post_dependencies", fun r => .text (r.dependencyText .post)),
    ("defined_phases", fun r => r.definedPhases.elim .none .texts),
    ("repo_masked", fun r => .bool r.repoMasked),
    ("maintainers", fun r => .texts (r.maintainers.map Maintainer.display)),
    ("maintainers.email", fun r => .texts (r.maintainers.map (·.email))),
    ("maintainers.name", fun r => .texts (r.maintainers.filterMap (·.name))),
    ("upstream.bugs_to", fun r => .ofOption r.project.bugsTo),
    ("upstream.changelog", fun r => .ofOption r.project.changelog),
    ("upstream.docs", fun r => .texts (r.project.docs.map (·.url))),
    ("upstream.maintainers",
      fun r => .texts (r.project.maintainers.map ProjectMaintainer.display)),
    ("upstream.remote_ids", fun r => .texts (r.project.remoteIds.map RemoteId.display))]

/-- The variable that a path below `metadata` names. -/
def variableOf? (path : String) : Option String :=
  ("metadata.".toList.isPrefixOf? path.toList).map String.ofList

def attribute? (r : PackageRecord) (path : String) : Option Value :=
  match r.identity.attribute? path with
  | some value => some value
  | none =>
    match attributes.lookup path with
    | some value => some (value r)
    | none => (variableOf? path).bind fun name => (r.metadata.get? name).map .text

def namespaces : List String :=
  ["key", "version", "description", "metadata", "use", "maintainers", "upstream"]

instance : Package PackageRecord where
  identity := identity
  attribute? := attribute?
  namespaces _ := namespaces

end PackageRecord

end PackageAlgebra
