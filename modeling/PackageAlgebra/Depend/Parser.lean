import PackageAlgebra.Depend.Tree
import PackageAlgebra.Text

/-!
# Reading dependency trees

An opening bracket starts a frame for the group or the conditional in front of
it, a closing bracket makes the frame a node of the frame below. Frames lie at
most 256 deep.
-/

namespace PackageAlgebra

inductive ExpressionError
  | tooDeep
  | unclosed
  | unmatched
  | missingGroup (word : String)
  | invalidCondition (word : String)
  | badItem (word : String) (cause : AtomError)
deriving DecidableEq, Repr

/-- The deepest nesting of groups that is read. -/
def maxDepth : Nat := 256

def ExpressionError.reason : ExpressionError → String
  | .tooDeep => s!"nesting too deep (more than {maxDepth} levels)"
  | .unclosed => "unclosed '('"
  | .unmatched => "unmatched ')'"
  | .missingGroup word => s!"'{word}' must be followed by '('"
  | .invalidCondition word => s!"invalid USE conditional '{word}'"
  | .badItem word cause => s!"bad item '{word}': {cause.message}"

def ExpressionError.message (e : ExpressionError) : String :=
  s!"Invalid dependency expression: {e.reason}"

inductive Opening
  | group (kind : GroupKind)
  | conditional (flag : String) (negated : Bool)
deriving DecidableEq, Repr

def Opening.node (o : Opening) (children : List (Dep α)) : Dep α :=
  match o with
  | .group kind => .group kind children
  | .conditional flag negated => .conditional flag negated children

/-- An open bracket and the nodes in front of it, the last first. -/
structure Frame (α : Type) where
  before : List (Dep α)
  opening : Opening

inductive Word
  | opening
  | closing
  | introduces (o : Opening)
  | badCondition
  | leaf
deriving DecidableEq, Repr

def readCondition (cs : List Char) : Option Opening :=
  let (negated, flag) := match cs with
    | '!' :: flag => (true, flag)
    | flag => (false, flag)
  if Text.isFlagName flag then some (.conditional (String.ofList flag) negated) else none

def Word.classify (word : String) : Word :=
  if word = "(" then .opening
  else if word = ")" then .closing
  else if word = "||" then .introduces (.group .anyOf)
  else if word = "^^" then .introduces (.group .exactlyOne)
  else if word = "??" then .introduces (.group .atMostOne)
  else if word.toList.getLast? = some '?' then
    match readCondition word.toList.dropLast with
    | some o => .introduces o
    | none => .badCondition
  else .leaf

namespace DepSet

variable [Leaf α]

/-- Reads the words behind `done`, the nodes already read, the last first, inside `frames`, the
innermost first. -/
def readWords (frames : List (Frame α)) (done : List (Dep α)) :
    List String → Except ExpressionError (DepSet α)
  | [] => if frames.isEmpty then .ok done.reverse else .error .unclosed
  | word :: words =>
    match Word.classify word with
    | .closing =>
      match frames with
      | [] => .error .unmatched
      | frame :: frames => readWords frames (frame.opening.node done.reverse :: frame.before) words
    | .opening =>
      if frames.length < maxDepth then
        readWords (⟨done, .group .allOf⟩ :: frames) [] words
      else .error .tooDeep
    | .introduces opening =>
      -- the bracket has to be the very next word
      match words with
      | "(" :: words =>
        if frames.length < maxDepth then readWords (⟨done, opening⟩ :: frames) [] words
        else .error .tooDeep
      | _ => .error (.missingGroup word)
    | .badCondition => .error (.invalidCondition word)
    | .leaf =>
      match Leaf.read word with
      | .ok a => readWords frames (.leaf a :: done) words
      | .error cause => .error (.badItem word cause)

def parse (text : String) : Except ExpressionError (DepSet α) :=
  readWords [] [] (Text.wordsOf text)

end DepSet

end PackageAlgebra
