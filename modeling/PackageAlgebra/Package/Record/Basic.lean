import PackageAlgebra.Json.Basic
import PackageAlgebra.Package.Basic
import PackageAlgebra.Version

/-!
# Package records

A record is a package as an index holds it, with everything that is known of it.
Its priority is that of the repository and stands in no index.
-/

namespace PackageAlgebra

-- ---------------------------------------------------------------------------
-- Maintainers and projects
-- ---------------------------------------------------------------------------

structure Maintainer where
  email : String
  name : Option String
deriving DecidableEq, Repr

inductive MaintainerStatus
  | active
  | inactive
  | unknown
deriving DecidableEq, Repr

structure ProjectMaintainer where
  name : String
  email : Option String
  status : MaintainerStatus
deriving DecidableEq, Repr

structure ProjectDoc where
  url : String
  lang : String
deriving DecidableEq, Repr

structure RemoteId where
  site : String
  name : String
deriving DecidableEq, Repr

structure Project where
  bugsTo : Option String
  changelog : Option String
  docs : List ProjectDoc
  maintainers : List ProjectMaintainer
  remoteIds : List RemoteId
deriving DecidableEq, Repr

def Project.empty : Project :=
  ⟨none, none, [], [], []⟩

namespace Maintainer

def display (m : Maintainer) : String :=
  match m.name with
  | some name => s!"{name} <{m.email}>"
  | none => m.email

def toJson (m : Maintainer) : Json :=
  .record [("email", .text m.email), ("name", .ofOption .text m.name)]

def ofJson? (j : Json) : Option Maintainer := do
  let field ← j.fields? ["email", "name"]
  let email ← Json.required Json.text? (field "email")
  let name ← Json.defaulted (Json.option? Json.text?) none (field "name")
  return ⟨email, name⟩

end Maintainer

namespace MaintainerStatus

def name : MaintainerStatus → String
  | .active => "active"
  | .inactive => "inactive"
  | .unknown => "unknown"

def ofName? (name : String) : Option MaintainerStatus :=
  [.active, .inactive, .unknown].find? (·.name == name)

def toJson (s : MaintainerStatus) : Json :=
  .text s.name

/-- A status is written as its name, or as an object that gives the name no content. -/
def ofJson? : Json → Option MaintainerStatus
  | .string (some name) => ofName? name
  | .object [(some name, .null)] => ofName? name
  | _ => none

end MaintainerStatus

namespace ProjectMaintainer

def display (m : ProjectMaintainer) : String :=
  match m.email with
  | some email => s!"{m.name} <{email}>"
  | none => m.name

def toJson (m : ProjectMaintainer) : Json :=
  .record [("name", .text m.name), ("email", .ofOption .text m.email), ("status", m.status.toJson)]

def ofJson? (j : Json) : Option ProjectMaintainer := do
  let field ← j.fields? ["name", "email", "status"]
  let name ← Json.required Json.text? (field "name")
  let email ← Json.defaulted (Json.option? Json.text?) none (field "email")
  let status ← Json.defaulted MaintainerStatus.ofJson? .unknown (field "status")
  return ⟨name, email, status⟩

end ProjectMaintainer

namespace ProjectDoc

def toJson (d : ProjectDoc) : Json :=
  .record [("url", .text d.url), ("lang", .text d.lang)]

def ofJson? (j : Json) : Option ProjectDoc := do
  let field ← j.fields? ["url", "lang"]
  let url ← Json.required Json.text? (field "url")
  let lang ← Json.defaulted Json.text? "en" (field "lang")
  return ⟨url, lang⟩

end ProjectDoc

namespace RemoteId

def display (r : RemoteId) : String :=
  s!"{r.site}: {r.name}"

def toJson (r : RemoteId) : Json :=
  .record [("site", .text r.site), ("name", .text r.name)]

def ofJson? (j : Json) : Option RemoteId := do
  let field ← j.fields? ["site", "name"]
  let site ← Json.required Json.text? (field "site")
  let name ← Json.required Json.text? (field "name")
  return ⟨site, name⟩

end RemoteId

namespace Project

def toJson (u : Project) : Json :=
  .record [("bugs_to", .ofOption .text u.bugsTo), ("changelog", .ofOption .text u.changelog),
    ("docs", .array (u.docs.map ProjectDoc.toJson)),
    ("maintainers", .array (u.maintainers.map ProjectMaintainer.toJson)),
    ("remote_ids", .array (u.remoteIds.map RemoteId.toJson))]

def ofJson? (j : Json) : Option Project := do
  let field ← j.fields? ["bugs_to", "changelog", "docs", "maintainers", "remote_ids"]
  let bugsTo ← Json.defaulted (Json.option? Json.text?) none (field "bugs_to")
  let changelog ← Json.defaulted (Json.option? Json.text?) none (field "changelog")
  let docs ← Json.defaulted (Json.list? ProjectDoc.ofJson?) [] (field "docs")
  let maintainers ←
    Json.defaulted (Json.list? ProjectMaintainer.ofJson?) [] (field "maintainers")
  let remoteIds ← Json.defaulted (Json.list? RemoteId.ofJson?) [] (field "remote_ids")
  return ⟨bugsTo, changelog, docs, maintainers, remoteIds⟩

end Project

-- ---------------------------------------------------------------------------
-- Variables
-- ---------------------------------------------------------------------------

structure Metadata where
  entries : List (String × String)
  sorted : entries.Pairwise fun a b => a.1 < b.1
deriving DecidableEq, Repr

namespace Metadata

def insertEntry (name value : String) : List (String × String) → List (String × String)
  | [] => [(name, value)]
  | entry :: entries =>
    if name < entry.1 then (name, value) :: entry :: entries
    else if name = entry.1 then (name, value) :: entries
    else entry :: insertEntry name value entries

theorem mem_insertEntry {name value : String} {entries : List (String × String)}
    {e : String × String} (h : e ∈ insertEntry name value entries) :
    e = (name, value) ∨ e ∈ entries := by
  induction entries with
  | nil => simpa [insertEntry] using h
  | cons entry entries ih =>
    simp only [insertEntry] at h
    split at h
    · simpa using h
    · split at h
      · rcases List.mem_cons.mp h with rfl | h
        · exact .inl rfl
        · exact .inr (List.mem_cons_of_mem _ h)
      · rcases List.mem_cons.mp h with rfl | h
        · exact .inr List.mem_cons_self
        · exact (ih h).imp id (List.mem_cons_of_mem _)

theorem sorted_insertEntry (name value : String) {entries : List (String × String)}
    (h : entries.Pairwise fun a b => a.1 < b.1) :
    (insertEntry name value entries).Pairwise fun a b => a.1 < b.1 := by
  induction entries with
  | nil => simp [insertEntry]
  | cons entry entries ih =>
    obtain ⟨hfirst, hrest⟩ := List.pairwise_cons.mp h
    simp only [insertEntry]
    split
    · rename_i hlt
      refine List.pairwise_cons.mpr ⟨?_, h⟩
      intro e he
      rcases List.mem_cons.mp he with rfl | he
      · exact hlt
      · exact String.lt_trans hlt (hfirst e he)
    · rename_i hge
      split
      · rename_i heq
        exact List.pairwise_cons.mpr ⟨fun e he => heq ▸ hfirst e he, hrest⟩
      · rename_i hne
        refine List.pairwise_cons.mpr ⟨?_, ih hrest⟩
        intro e he
        rcases mem_insertEntry he with rfl | he
        · exact Std.lt_of_le_of_ne (String.not_lt.mp hge) (Ne.symm hne)
        · exact hfirst e he

def empty : Metadata :=
  ⟨[], .nil⟩

def insert (m : Metadata) (name value : String) : Metadata :=
  ⟨insertEntry name value m.entries, sorted_insertEntry name value m.sorted⟩

/-- The variables set one after another; the last value of a name stays. -/
def ofList (entries : List (String × String)) : Metadata :=
  entries.foldl (fun m (name, value) => m.insert name value) empty

def get? (m : Metadata) (name : String) : Option String :=
  m.entries.lookup name

def toJson (m : Metadata) : Json :=
  .record (m.entries.map fun (name, value) => (name, .text value))

def ofJson? (j : Json) : Option Metadata := do
  let members ← j.members?
  let entries ← members.mapM fun (name, value) => value.text?.map (name, ·)
  return ofList entries

end Metadata

-- ---------------------------------------------------------------------------
-- Records
-- ---------------------------------------------------------------------------

structure Description where
  short : String
  long : Option String
deriving DecidableEq, Repr

def Description.empty : Description :=
  ⟨"", none⟩

/-- A USE flag of a package: its default, where it has one, and its state. -/
structure UseFlag where
  name : String
  default : Option Bool
  enabled : Bool
deriving DecidableEq, Repr

structure PackageRecord where
  key : PackageKey
  version : Version
  slot : String
  subslot : Option String
  repository : Option String
  priority : Int32
  path : Option String
  eapi : String
  description : Description
  homepages : List String
  keywords : List String
  inherits : List String
  iuse : List String
  appliedUse : List String
  license : String
  restrict : String
  properties : String
  requiredUse : String
  buildDependencies : String
  cbuildBuildDependencies : Option String
  runDependencies : String
  postDependencies : String
  definedPhases : Option (List String)
  repoMasked : Bool
  maintainers : List Maintainer
  project : Project
  metadata : Metadata
deriving DecidableEq, Repr

/-- Splits an entry of the flag list into the flag and its default, set by `+` or `-`. -/
def UseFlag.readEntry (entry : String) : String × Option Bool :=
  match entry.toList with
  | '+' :: name => (String.ofList name, some true)
  | '-' :: name => (String.ofList name, some false)
  | _ => (entry, none)

namespace PackageRecord

def bare (key : PackageKey) (version : Version) : PackageRecord where
  key
  version
  slot := "0"
  subslot := none
  repository := none
  priority := 0
  path := none
  eapi := "0"
  description := .empty
  homepages := []
  keywords := []
  inherits := []
  iuse := []
  appliedUse := []
  license := ""
  restrict := ""
  properties := ""
  requiredUse := ""
  buildDependencies := ""
  cbuildBuildDependencies := none
  runDependencies := ""
  postDependencies := ""
  definedPhases := none
  repoMasked := false
  maintainers := []
  project := .empty
  metadata := .empty

def useFlags (r : PackageRecord) : List UseFlag :=
  r.iuse.map fun entry =>
    let (name, default) := UseFlag.readEntry entry
    { name, default, enabled := r.appliedUse.contains name }

end PackageRecord

end PackageAlgebra
