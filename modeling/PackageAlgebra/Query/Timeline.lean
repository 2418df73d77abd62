import PackageAlgebra.Query.Filter

/-!
# Timelines

Going through a set of packages takes place in steps: predicates are called, and
items come out, each a package or an error. Filtering works step by step, so
whoever stops reading early leaves the calls behind that place unmade.
-/

namespace PackageAlgebra

inductive Event (P : Type)
  | call (c : Call P)
  | item (i : Except Error P)

abbrev Timeline (P : Type) := List (Event P)

/-- What a reader of a timeline finds, and the calls made while it read. -/
structure Answer (P α : Type) where
  result : Except Error α
  calls : List (Call P)

namespace Answer

def ofExcept (result : Except Error α) : Answer P α :=
  ⟨result, []⟩

def andThen (a : Answer P α) (next : α → Answer P β) : Answer P β :=
  match a.result with
  | .ok x => ⟨(next x).result, a.calls ++ (next x).calls⟩
  | .error e => ⟨.error e, a.calls⟩

instance : Monad (Answer P) where
  pure x := ofExcept (.ok x)
  bind := andThen

def mapError (f : Error → Error) (a : Answer P α) : Answer P α :=
  { a with result := a.result.mapError f }

def after (c : Call P) (a : Answer P α) : Answer P α :=
  { a with calls := c :: a.calls }

end Answer

namespace Timeline

def ofPackages (ps : List P) : Timeline P :=
  ps.map fun p => .item (.ok p)

def items (t : Timeline P) : List (Except Error P) :=
  t.filterMap fun
    | .item i => some i
    | .call _ => none

def calls (t : Timeline P) : List (Call P) :=
  t.filterMap fun
    | .call c => some c
    | .item _ => none

def next? : Timeline P → Answer P (Option (P × Timeline P))
  | [] => .ofExcept (.ok none)
  | .call c :: rest => .after c (next? rest)
  | .item i :: rest => .ofExcept (i.map fun p => some (p, rest))

def packages : Timeline P → Answer P (List P)
  | [] => .ofExcept (.ok [])
  | .call c :: rest => .after c (packages rest)
  | .item (.error e) :: _ => .ofExcept (.error e)
  | .item (.ok p) :: rest => (p :: ·) <$> packages rest

@[simp] theorem items_ofPackages (ps : List P) : (ofPackages ps).items = ps.map .ok := by
  induction ps with
  | nil => rfl
  | cons p ps ih => exact congrArg (Except.ok p :: ·) ih

variable {P : Type} [Package P]

/-- The timeline of the packages that meet the filter. A package for which the filter has no
answer makes an error. -/
def filter (f : Filter P) : Timeline P → Timeline P
  | [] => []
  | .call c :: rest => .call c :: filter f rest
  | .item (.error e) :: rest => .item (.error e) :: filter f rest
  | .item (.ok p) :: rest =>
    let found := f.inspect p
    -- the calls come before the item that they decide on, also when it is left out
    found.calls.map .call ++
      match found.answer with
      | .ok true => .item (.ok p) :: filter found.asked rest
      | .ok false => filter found.asked rest
      | .error e => .item (.error e) :: filter found.asked rest

/-- The filter with what it remembers when the timeline is through. -/
def filterAfter (f : Filter P) : Timeline P → Filter P
  | [] => f
  | .item (.ok p) :: rest => filterAfter (f.inspect p).asked rest
  | _ :: rest => filterAfter f rest

end Timeline

/-- A set of packages behind a filter. -/
structure FilteredSet (P : Type) where
  source : Timeline P
  filter : Filter P

namespace FilteredSet

variable {P : Type} [Package P]

def narrow (s : FilteredSet P) (f : Filter P) : FilteredSet P :=
  { s with filter := s.filter.and f }

def timeline (s : FilteredSet P) : Timeline P :=
  s.source.filter s.filter

end FilteredSet

end PackageAlgebra
