import PackageAlgebra.Query.Timeline

/-!
# Groups

The packages of a set parted by their values of some attributes. Groups come in
the order of their first packages, and a group keeps its packages in the order
of the set. The pass looks the group of a key up in an index, which stays in
step with the groups.
-/

namespace PackageAlgebra

structure Group (P : Type) where
  key : List Value
  packages : List P
deriving DecidableEq, Repr

abbrev Groups (P : Type) := List (Group P)

def Groups.get? (key : List Value) (groups : Groups P) : Option (List P) :=
  (groups.find? (·.key == key)).map (·.packages)

def Group.push (p : P) (group : Group P) : Group P :=
  { group with packages := group.packages ++ [p] }

/-- The groups that a pass has made so far, and the place of the group of each key. -/
structure Partition (P : Type) where
  groups : Groups P
  index : List (List Value × Nat)
  lookup_index : ∀ key, index.lookup key = groups.findIdx? (·.key == key)

namespace Partition

def empty : Partition P :=
  ⟨[], [], fun _ => rfl⟩

theorem findIdx?_modify_push (key : List Value) (p : P) (groups : Groups P) (i : Nat) :
    (groups.modify i (Group.push p)).findIdx? (·.key == key) =
      groups.findIdx? (·.key == key) := by
  induction groups generalizing i with
  | nil => simp
  | cons group rest ih =>
    cases i with
    | zero => simp [Group.push, List.findIdx?_cons]
    | succ i => simp [List.findIdx?_cons, ih]

theorem lookup_index_concat {key : List Value} {groups : Groups P}
    {index : List (List Value × Nat)}
    (h : ∀ k, index.lookup k = groups.findIdx? (·.key == k)) (hnew : index.lookup key = none)
    (p : P) (k : List Value) :
    ((key, groups.length) :: index).lookup k =
      (groups ++ [Group.mk key [p]]).findIdx? (·.key == k) := by
  rw [List.findIdx?_append, List.lookup_cons, ← h]
  by_cases hkey : k = key
  · subst hkey
    simp [hnew]
  · have hne : (k == key) = false := beq_eq_false_iff_ne.mpr hkey
    simp [hne, Ne.symm hkey]

/-- Puts a package into the group of its key. A new key gets a group behind the others. -/
def insert (key : List Value) (p : P) (s : Partition P) : Partition P :=
  match h : s.index.lookup key with
  | some i =>
    ⟨s.groups.modify i (Group.push p), s.index, fun k =>
      (s.lookup_index k).trans (findIdx?_modify_push k p s.groups i).symm⟩
  | none =>
    ⟨s.groups ++ [⟨key, [p]⟩], (key, s.groups.length) :: s.index,
      lookup_index_concat s.lookup_index h p⟩

end Partition

namespace AttributePath

variable {P : Type} [Package P]

def resolveAll (p : P) : List AttributePath → Except Error (List Value) × List AttributePath
  | [] => (.ok [], [])
  | path :: rest =>
    match path.resolve p with
    | (.error e, path) => (.error e, path :: rest)
    | (.ok value, path) =>
      let (values, rest) := resolveAll p rest
      (values.map (value :: ·), path :: rest)

end AttributePath

namespace Timeline

variable {P : Type} [Package P]

def groupFrom (s : Partition P) (paths : List AttributePath) :
    Timeline P → Answer P (Groups P)
  | [] => .ofExcept (.ok s.groups)
  | .call c :: rest => .after c (groupFrom s paths rest)
  | .item (.error e) :: _ => .ofExcept (.error e)
  | .item (.ok p) :: rest =>
    match AttributePath.resolveAll p paths with
    | (.error e, _) => .ofExcept (.error e)
    | (.ok key, paths) => groupFrom (s.insert key p) paths rest

/-- Parts the packages by the attributes that the keywords name. -/
def groupBy (names : List String) (t : Timeline P) : Answer P (Groups P) :=
  groupFrom .empty (names.map .ofName) t

end Timeline

end PackageAlgebra
