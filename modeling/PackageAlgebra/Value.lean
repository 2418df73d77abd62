/-!
# Attribute values

`none` stands for an attribute that the package has and that holds nothing. The
text of a list is that of its items with blanks between them.
-/

namespace PackageAlgebra

inductive Value
  | none
  | bool (b : Bool)
  | int (n : Int)
  | text (s : String)
  | list (items : List Value)
deriving Repr, Inhabited

namespace Value

def ofOption : Option String → Value
  | some s => .text s
  | Option.none => .none

def texts (ss : List String) : Value :=
  .list (ss.map .text)

def text? : Value → Option String
  | .text s => some s
  | _ => Option.none

def list? : Value → Option (List Value)
  | .list items => some items
  | _ => Option.none

mutual

def display : Value → String
  | .none => ""
  | .bool b => if b then "true" else "false"
  | .int n => toString n
  | .text s => s
  | .list items => displayItems items

def displayItems : List Value → String
  | [] => ""
  | [item] => display item
  | item :: items => display item ++ " " ++ displayItems items

end

instance : ToString Value := ⟨display⟩

mutual

def same : Value → Value → Bool
  | .none, .none => true
  | .bool a, .bool b => a == b
  | .int a, .int b => a == b
  | .text a, .text b => a == b
  | .list as, .list bs => sameItems as bs
  | _, _ => false

def sameItems : List Value → List Value → Bool
  | [], [] => true
  | a :: as, b :: bs => same a b && sameItems as bs
  | _, _ => false

end

mutual

theorem same_iff : ∀ a b : Value, same a b = true ↔ a = b
  | .list as, .list bs => by simp [same, sameItems_iff as bs]
  | .none, b => by cases b <;> simp [same]
  | .bool _, b => by cases b <;> simp [same]
  | .int _, b => by cases b <;> simp [same]
  | .text _, b => by cases b <;> simp [same]
  | .list _, .none | .list _, .bool _ | .list _, .int _ | .list _, .text _ => by simp [same]

theorem sameItems_iff : ∀ as bs : List Value, sameItems as bs = true ↔ as = bs
  | [], [] => by simp [sameItems]
  | [], _ :: _ | _ :: _, [] => by simp [sameItems]
  | a :: as, b :: bs => by simp [sameItems, same_iff a b, sameItems_iff as bs]

end

instance : DecidableEq Value := fun a b => decidable_of_iff _ (same_iff a b)

def rank : Value → Nat
  | .none => 0
  | .bool _ => 1
  | .int _ => 2
  | .text _ => 3
  | .list _ => 4

mutual

/-- Kinds come in order of rank; lists compare item by item. -/
def compareValues : Value → Value → Ordering
  | .bool a, .bool b => compare a b
  | .int a, .int b => compare a b
  | .text a, .text b => compare a b
  | .list as, .list bs => compareItems as bs
  | a, b => compare a.rank b.rank

def compareItems : List Value → List Value → Ordering
  | [], [] => .eq
  | [], _ :: _ => .lt
  | _ :: _, [] => .gt
  | a :: as, b :: bs => (compareValues a b).then (compareItems as bs)

end

instance : Ord Value := ⟨compareValues⟩

end Value

end PackageAlgebra
