import PackageAlgebra.Depend.Tree
import PackageAlgebra.Json.Basic

/-!
# Dependency trees as JSON

A node is an object with one member, named for the kind of the node.
-/

namespace PackageAlgebra

def Json.maxDepth : Nat := 127

def GroupKind.member : GroupKind → String
  | .allOf => "all_of"
  | .anyOf => "any_of"
  | .exactlyOne => "exactly_one_of"
  | .atMostOne => "at_most_one_of"

def GroupKind.ofMember? (name : String) : Option GroupKind :=
  [.allOf, .anyOf, .exactlyOne, .atMostOne].find? (·.member == name)

namespace Dep

variable [Leaf α]

mutual

def toJson : Dep α → Json
  | .leaf a => .record [("atom", .text (Leaf.text a))]
  | .group kind children => .record [(kind.member, .array (toJsons children))]
  | .conditional flag negated children =>
    .record [("conditional", .record [("flag", .text flag), ("negate", .bool negated),
      ("children", .array (toJsons children))])]

def toJsons : List (Dep α) → List Json
  | [] => []
  | node :: nodes => toJson node :: toJsons nodes

end

def leafOfJson? (j : Json) : Option (Dep α) :=
  j.text?.bind fun word => (Leaf.read word).toOption.map .leaf

mutual

/-- Reads a node whose brackets may lie `depth` deep. -/
def ofJson? : Nat → Json → Option (Dep α)
  | 0, _ => none
  | depth + 1, j =>
    match j with
    | .object [(some name, value)] =>
      if name = "atom" then leafOfJson? value
      else if name = "conditional" then conditionalOfJson? depth value
      else
        match GroupKind.ofMember? name with
        | some kind => (ofJsons? depth value).map (.group kind)
        | none => none
    | _ => none

def conditionalOfJson? : Nat → Json → Option (Dep α)
  | 0, _ => none
  | depth + 1, j => do
    let field ← j.fields? ["flag", "negate", "children"]
    let flag ← Json.required Json.text? (field "flag")
    let negated ← Json.required Json.bool? (field "negate")
    let children ← Json.required (ofJsons? depth) (field "children")
    return .conditional flag negated children

def ofJsons? : Nat → Json → Option (List (Dep α))
  | 0, _ => none
  | depth + 1, j => j.list? (ofJson? depth)

end

end Dep

namespace DepSet

variable [Leaf α]

def toJson (deps : DepSet α) : Json :=
  .array (Dep.toJsons deps)

def ofJson? (j : Json) : Option (DepSet α) :=
  Dep.ofJsons? Json.maxDepth j

end DepSet

end PackageAlgebra
