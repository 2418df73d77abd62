import PackageAlgebra.Package.Record.Attributes
import PackageAlgebra.Repository.Config
import PackageAlgebra.Text

/-!
# Requests

A stack of repositories and a command on it. The stack's options may stand
before the command or among its own; there they take the place of those before
it. An option's value stands behind it or is joined to it; apart it cannot begin
with a hyphen.
-/

namespace PackageAlgebra.CommandLine

-- ---------------------------------------------------------------------------
-- Arguments
-- ---------------------------------------------------------------------------

structure Switch where
  name : String
  letter : Option Char
deriving DecidableEq, Repr

/-- A question about the program itself, which ends the reading of the arguments. -/
inductive Inquiry
  | version
  | help
deriving DecidableEq, Repr

structure OptionRule where
  switch : Switch
  isSingle : Bool
  accepts : String → Bool

/-- What may stand among some arguments. Where there are commands, there are no operands. -/
structure Grammar where
  options : List OptionRule
  flags : List (Switch × Inquiry)
  commands : List String
  maxOperands : Option Nat

inductive Token
  | separator
  | flag (inquiry : Inquiry)
  | option (rule : OptionRule) (value : Option String)
  | plain

namespace Grammar

def switch? (g : Grammar) (isMeant : Switch → Bool) (value : Option String) (joined : Bool) :
    Option Token :=
  match g.options.find? (isMeant ·.switch) with
  | some rule => some (.option rule value)
  | none =>
    match g.flags.find? (isMeant ·.1) with
    | some (_, inquiry) => if joined then none else some (.flag inquiry)
    | none => none

/-- What is joined to an option's letter, with or without an equals sign between. -/
def joinedValue : List Char → Option String
  | [] => none
  | '=' :: value => some (String.ofList value)
  | value => some (String.ofList value)

/-- What an argument is by itself. -/
def token? (g : Grammar) (argument : String) : Option Token :=
  match argument.toList with
  | ['-', '-'] => some .separator
  | '-' :: '-' :: cs =>
    let (name, value) := match Text.cutFirst? ['='] cs with
      | some (name, value) => (name, some (String.ofList value))
      | none => (cs, none)
    g.switch? (·.name == String.ofList name) value value.isSome
  | '-' :: c :: cs => g.switch? (·.letter == some c) (joinedValue cs) false
  -- a hyphen by itself is an operand as well
  | _ => some .plain

end Grammar

/-- Options with their values and operands, each in their order. -/
structure Arguments where
  values : List (String × String)
  operands : List String
deriving DecidableEq, Repr

namespace Arguments

def empty : Arguments :=
  ⟨[], []⟩

def all (a : Arguments) (name : String) : List String :=
  (a.values.filter (·.1 == name)).map (·.2)

def atMostOne? (a : Arguments) (name : String) : Option (Option String) :=
  match a.all name with
  | [] => some none
  | [value] => some (some value)
  | _ => none

/-- Adds the value of an option, unless the option takes no such value or no second one. -/
def addValue? (a : Arguments) (rule : OptionRule) (value : String) : Option Arguments :=
  let isRepeated := rule.isSingle && !(a.all rule.switch.name).isEmpty
  if isRepeated || !rule.accepts value then none
  else some { a with values := a.values ++ [(rule.switch.name, value)] }

def addOperand? (a : Arguments) (g : Grammar) (operand : String) : Option Arguments :=
  if g.maxOperands.any (· ≤ a.operands.length) then none
  else some { a with operands := a.operands ++ [operand] }

end Arguments

inductive Ending
  | exhausted
  | inquiry (i : Inquiry)
  | command (name : String) (rest : List String)
deriving DecidableEq, Repr

/-- Reads arguments behind those already read, up to a command, an inquiry or the end. A mistake
counts only if it comes before an inquiry. -/
def Grammar.readFrom? (g : Grammar) (a : Arguments) :
    List String → Option (Arguments × Ending)
  | [] => some (a, .exhausted)
  | argument :: rest => do
    match ← g.token? argument with
    | .separator => return ({ a with operands := a.operands ++ rest }, .exhausted)
    | .flag i => return (a, .inquiry i)
    | .option rule (some value) => g.readFrom? (← a.addValue? rule value) rest
    | .option rule none =>
      match rest with
      | [] => none
      | value :: rest =>
        -- a value that looks like a switch has to be joined to its option
        match ← g.token? value with
        | .plain => g.readFrom? (← a.addValue? rule value) rest
        | _ => none
    | .plain =>
      if g.commands.isEmpty then g.readFrom? (← a.addOperand? g argument) rest
      else if g.commands.contains argument then return (a, .command argument rest)
      else none

def Grammar.read? (g : Grammar) (arguments : List String) : Option (Arguments × Ending) :=
  g.readFrom? .empty arguments

-- ---------------------------------------------------------------------------
-- Requests
-- ---------------------------------------------------------------------------

inductive Command
  | packageManager
  | select (atom : String) (conditions : List String)
  | filter (atom : Option String) (conditions patterns : List String)
  | get (atom : String)
  | groupBy (names : List String) (atom : Option String)
  | depends (atom : String) (occasion : DependencyClass) (flags : List String)
deriving DecidableEq, Repr

structure Stacking where
  config : Option String
  entries : List RepositoryEntry
deriving DecidableEq, Repr

structure Request where
  stacking : Stacking
  command : Command
deriving DecidableEq, Repr

inductive Invocation
  | inquiry (i : Inquiry)
  | request (r : Request)
deriving DecidableEq, Repr

def dependencyClass? : String → Option DependencyClass
  | "run" => some .run
  | "build" => some .build
  | "bdepend" => some .cbuildBuild
  | "post" => some .post
  | _ => none

def freeOption (name : String) (letter : Option Char) : OptionRule :=
  ⟨⟨name, letter⟩, false, fun _ => true⟩

def stackingOptions : List OptionRule :=
  [⟨⟨"repo", some 'r'⟩, false, fun text => (RepositoryEntry.parse text).toOption.isSome⟩,
    ⟨⟨"config", some 'c'⟩, true, (· ≠ "")⟩]

def helpFlag : Switch × Inquiry :=
  (⟨"help", some 'h'⟩, .help)

def versionFlag : Switch × Inquiry :=
  (⟨"version", some 'V'⟩, .version)

def commands : List (String × List OptionRule × Option Nat) :=
  [("package-manager", [], some 0),
    ("select", [freeOption "attr" (some 'a')], some 1),
    ("filter", [freeOption "attr" (some 'a'), freeOption "regex" none], some 1),
    ("get", [], some 1),
    ("group-by", [⟨⟨"atom", none⟩, true, fun _ => true⟩], none),
    ("depends",
      [⟨⟨"kind", some 'k'⟩, true, fun value => (dependencyClass? value).isSome⟩,
        freeOption "use" (some 'u')],
      some 1)]

def programGrammar : Grammar where
  options := stackingOptions
  flags := [versionFlag, helpFlag]
  commands := commands.map (·.1)
  maxOperands := some 0

def commandGrammar (name : String) : Grammar :=
  let (options, maxOperands) := (commands.lookup name).getD ([], some 0)
  ⟨stackingOptions ++ options, [helpFlag], [], maxOperands⟩

def Stacking.ofArguments? (a : Arguments) : Option Stacking := do
  let entries ← (a.all "repo").mapM fun text => (RepositoryEntry.parse text).toOption
  return ⟨← a.atMostOne? "config", entries⟩

def Stacking.within (inner outer : Stacking) : Stacking where
  config := inner.config.or outer.config
  entries := if inner.entries.isEmpty then outer.entries else inner.entries

def Command.ofArguments? (name : String) (a : Arguments) : Option Command :=
  match name, a.operands with
  | "package-manager", [] => some .packageManager
  | "select", [atom] => some (.select atom (a.all "attr"))
  | "filter", [] => some (.filter none (a.all "attr") (a.all "regex"))
  | "filter", [atom] => some (.filter (some atom) (a.all "attr") (a.all "regex"))
  | "get", [atom] => some (.get atom)
  | "group-by", first :: more =>
    (a.atMostOne? "atom").map fun atom => .groupBy (first :: more) atom
  | "depends", [atom] => do
    let kind ← a.atMostOne? "kind"
    return .depends atom (← dependencyClass? (kind.getD "run")) (a.all "use")
  | _, _ => none

/-- Reads the arguments of the program; `none` is a mistake in their use. -/
def Invocation.ofArguments? (arguments : List String) : Option Invocation := do
  let (outer, ending) ← programGrammar.read? arguments
  let outerStacking ← Stacking.ofArguments? outer
  match ending with
  | .exhausted => none
  | .inquiry i => return .inquiry i
  | .command name rest =>
    let (inner, ending) ← (commandGrammar name).read? rest
    let innerStacking ← Stacking.ofArguments? inner
    match ending with
    | .inquiry i => return .inquiry i
    | .command .. => none
    | .exhausted =>
      let command ← Command.ofArguments? name inner
      return .request ⟨innerStacking.within outerStacking, command⟩

end PackageAlgebra.CommandLine
