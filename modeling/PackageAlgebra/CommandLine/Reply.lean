import PackageAlgebra.CommandLine.Request
import PackageAlgebra.Depend.Tree
import PackageAlgebra.Query.Group
import PackageAlgebra.Query.Selection
import PackageAlgebra.Repository.Config

/-!
# Replies

What the program answers: lines of text, and perhaps an error behind them.
-/

namespace PackageAlgebra.CommandLine

inductive Failure
  | noCondition (text : String)
  | noRepositories
  | unreadableConfig (path : String)
  | of (e : Error)
deriving DecidableEq, Repr

def Failure.message : Failure → String
  | .noCondition text => s!"Expected KEY=VALUE, got '{text}'"
  | .noRepositories => "No repositories given; use --repo or --config"
  | .unreadableConfig path => s!"Failed to read stack configuration {path}"
  | .of e => e.message

structure Reply where
  lines : List String
  failure : Option Failure
deriving DecidableEq, Repr

namespace Reply

def ofLines (lines : List String) : Reply :=
  ⟨lines, none⟩

def ofExcept : Except Failure (List String) → Reply
  | .ok lines => ofLines lines
  | .error f => ⟨[], some f⟩

def output (r : Reply) : String :=
  String.join (r.lines.map (· ++ "\n"))

end Reply

/-- The configuration that a request describes; entries given by themselves come last. -/
def Stacking.configuration (files : FileReader) (s : Stacking) : Except Failure StackConfig := do
  let config ← match s.config with
    | some path => (StackConfig.load files path).mapError fun _ => Failure.unreadableConfig path
    | none => .ok (.ofEntries [])
  return config.extend s.entries

def Stacking.indexPaths (files : FileReader) (s : Stacking) : List String :=
  match s.configuration files with
  | .ok config => config.sources.map (·.path)
  | .error _ => []

def Stacking.load (files : FileReader) (s : Stacking) : Except Failure RepositoryStack := do
  let config ← s.configuration files
  if config.entries.isEmpty then .error .noRepositories
  else (config.buildStack files).mapError .of

def splitCondition (text : String) : Except Failure (String × String) :=
  match Text.cutFirst? ['='] text.toList with
  | none | some ([], _) => .error (.noCondition text)
  | some (name, rest) => .ok (String.ofList name, String.ofList rest)

/-- The condition that an attribute matches a pattern, which `patternOf` makes of the text behind
the equals sign. -/
def attributeCondition (patternOf : String → String) (text : String) :
    Except Failure (Condition PackageRecord) := do
  let (name, rest) ← splitCondition text
  let test ← (ValueTest.ofPattern (patternOf rest)).mapError .of
  return .attribute (.ofName name) test

def literalPattern (text : String) : String :=
  String.ofList (Pattern.escape text.toList)

def parseAtom (text : String) : Except Failure Atom :=
  (Atom.parse text).mapError fun e => .of (.atom e)

def filterOf (atom : Option String) (conditions patterns : List String) :
    Except Failure (Filter PackageRecord) := do
  let atoms ← atom.toList.mapM parseAtom
  let literal ← conditions.mapM (attributeCondition literalPattern)
  let matching ← patterns.mapM (attributeCondition id)
  return ⟨atoms.map .atom ++ literal ++ matching⟩

def line (p : PackageRecord) : String :=
  p.identity.display

def result (a : Answer PackageRecord α) : Except Failure α :=
  a.result.mapError .of

/-- The lines of the packages, up to the first error. -/
def replyOfItems : List (Except Error PackageRecord) → Reply
  | [] => .ofLines []
  | .error e :: _ => ⟨[], some (.of e)⟩
  | .ok p :: items =>
    let rest := replyOfItems items
    { rest with lines := line p :: rest.lines }

def listing (items : List (Except Error PackageRecord)) : Reply :=
  if items.isEmpty then .ofLines ["No packages found."] else replyOfItems items

def groupLines (group : Group PackageRecord) : List String :=
  ("(" ++ String.intercalate ", " (group.key.map Value.display) ++ "):") ::
    group.packages.map fun p => "  " ++ line p

def groupingLines (groups : Groups PackageRecord) : List String :=
  groups.flatMap groupLines ++ ["", s!"Total: {groups.length} group(s)"]

/-- The dependencies of a package as they are declared, and as they are for the flags; those of
the package count if none are given. -/
def dependencyLines (p : PackageRecord) (occasion : DependencyClass) (flags : List String) :
    Except Failure (List String) := do
  let declared ← (p.dependencies occasion).mapError fun e => Failure.of (.expression e)
  let applied := if flags.isEmpty then p.isApplied else AppliedUse.isEnabled flags
  let evaluated := declared.withoutConditionals applied
  return [line p, "  Declared:  " ++ declared.print, "  Evaluated: " ++ evaluated.print]

def Command.reply (files : FileReader) (s : Stacking) : Command → Reply
  | .packageManager => .ofLines ["pmquery"]
  | .select atom conditions => .ofExcept do
    let stack ← s.load files
    let wanted ← filterOf (some atom) conditions []
    return [line (← result (stack.timeline.select wanted))]
  | .filter atom conditions patterns =>
    match (do return (← s.load files, ← filterOf atom conditions patterns)) with
    | .error f => .ofExcept (.error f)
    | .ok (stack, wanted) => listing (stack.timeline.filter wanted).items
  | .get atom => .ofExcept do
    let stack ← s.load files
    return [line (← result (stack.timeline.get (.ofAtom (← parseAtom atom))))]
  | .groupBy names atom => .ofExcept do
    let stack ← s.load files
    let wanted ← filterOf atom [] []
    return groupingLines (← result ((stack.timeline.filter wanted).groupBy names))
  | .depends atom occasion flags => .ofExcept do
    let stack ← s.load files
    let p ← result (stack.timeline.select (.ofAtom (← parseAtom atom)))
    dependencyLines p occasion flags

def Inquiry.reply : Inquiry → Reply
  | .version => .ofLines ["pmquery 0.1.0"]
  | .help => .ofLines
    ["Query Gentoo-style package repositories", "",
      "Usage: pmquery [--repo [NAME=]PATH[:PRIORITY]]... [--config FILE] COMMAND", "",
      "Commands: " ++ String.intercalate ", " (commands.map (·.1))]

/-- The repositories that an invocation is about; an inquiry is about none. -/
def Invocation.stacking : Invocation → Stacking
  | .inquiry _ => ⟨none, []⟩
  | .request r => r.stacking

def Invocation.reply (files : FileReader) : Invocation → Reply
  | .inquiry i => i.reply
  | .request r => r.command.reply files r.stacking

end PackageAlgebra.CommandLine
