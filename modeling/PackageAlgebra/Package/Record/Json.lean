import PackageAlgebra.Package.Record.Basic

/-!
# Records as JSON

A record is written with all its fields but the priority. It may be read from
any selection of them, as long as key and version are there.
-/

namespace PackageAlgebra

namespace Description

def toJson (d : Description) : Json :=
  .record [("short", .text d.short), ("long", .ofOption .text d.long)]

def ofJson? (j : Json) : Option Description := do
  let field ← j.fields? ["short", "long"]
  let short ← Json.defaulted Json.text? "" (field "short")
  let long ← Json.defaulted (Json.option? Json.text?) none (field "long")
  return ⟨short, long⟩

end Description

namespace PackageRecord

def keyOfJson? (j : Json) : Option PackageKey :=
  j.text?.bind fun text => (PackageKey.parse text).toOption

def versionOfJson? (j : Json) : Option Version :=
  j.text?.bind fun text => (Version.parse text).toOption

def toJson (r : PackageRecord) : Json :=
  .record [
    ("key", .text (toString r.key)),
    ("version", .text (toString r.version)),
    ("slot", .text r.slot),
    ("subslot", .ofOption .text r.subslot),
    ("repository", .ofOption .text r.repository),
    ("path", .ofOption .text r.path),
    ("eapi", .text r.eapi),
    ("description", r.description.toJson),
    ("homepages", .texts r.homepages),
    ("keywords", .texts r.keywords),
    ("inherits", .texts r.inherits),
    ("iuse", .texts r.iuse),
    ("applied_use", .texts r.appliedUse),
    ("license", .text r.license),
    ("restrict", .text r.restrict),
    ("properties", .text r.properties),
    ("required_use", .text r.requiredUse),
    ("build_dependencies", .text r.buildDependencies),
    ("cbuild_build_dependencies", .ofOption .text r.cbuildBuildDependencies),
    ("run_dependencies", .text r.runDependencies),
    ("post_dependencies", .text r.postDependencies),
    ("defined_phases", .ofOption .texts r.definedPhases),
    ("repo_masked", .bool r.repoMasked),
    ("maintainers", .array (r.maintainers.map Maintainer.toJson)),
    ("upstream", r.project.toJson),
    ("metadata", r.metadata.toJson)]

def fieldNames : List String :=
  ["key", "version", "slot", "subslot", "repository", "path", "eapi", "description", "homepages",
    "keywords", "inherits", "iuse", "applied_use", "license", "restrict", "properties",
    "required_use", "build_dependencies", "cbuild_build_dependencies", "run_dependencies",
    "post_dependencies", "defined_phases", "repo_masked", "maintainers", "upstream", "metadata"]

def ofJson? (j : Json) : Option PackageRecord := do
  let field ← j.fields? fieldNames
  let text name default := Json.defaulted Json.text? default (field name)
  let optionText name := Json.defaulted (Json.option? Json.text?) none (field name)
  let texts name := Json.defaulted Json.texts? [] (field name)
  let key ← Json.required keyOfJson? (field "key")
  let version ← Json.required versionOfJson? (field "version")
  let slot ← text "slot" "0"
  let subslot ← optionText "subslot"
  let repository ← optionText "repository"
  let path ← optionText "path"
  let eapi ← text "eapi" "0"
  let description ← Json.defaulted Description.ofJson? .empty (field "description")
  let homepages ← texts "homepages"
  let keywords ← texts "keywords"
  let inherits ← texts "inherits"
  let iuse ← texts "iuse"
  let appliedUse ← texts "applied_use"
  let license ← text "license" ""
  let restrict ← text "restrict" ""
  let properties ← text "properties" ""
  let requiredUse ← text "required_use" ""
  let buildDependencies ← text "build_dependencies" ""
  let cbuildBuildDependencies ← optionText "cbuild_build_dependencies"
  let runDependencies ← text "run_dependencies" ""
  let postDependencies ← text "post_dependencies" ""
  let definedPhases ← Json.defaulted (Json.option? Json.texts?) none (field "defined_phases")
  let repoMasked ← Json.defaulted Json.bool? false (field "repo_masked")
  let maintainers ← Json.defaulted (Json.list? Maintainer.ofJson?) [] (field "maintainers")
  let project ← Json.defaulted Project.ofJson? .empty (field "upstream")
  let metadata ← Json.defaulted Metadata.ofJson? .empty (field "metadata")
  return {
    key, version, slot, subslot, repository, priority := 0, path, eapi, description, homepages,
    keywords, inherits, iuse, appliedUse, license, restrict, properties, requiredUse,
    buildDependencies, cbuildBuildDependencies, runDependencies, postDependencies, definedPhases,
    repoMasked, maintainers, project, metadata }

end PackageRecord

end PackageAlgebra
