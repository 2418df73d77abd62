import PackageAlgebra.Query.Timeline

/-!
# Questions to a set of packages

Of packages that are equally good the later one is better. A set of packages
with different keys has no best.
-/

namespace PackageAlgebra

variable {P : Type} [Package P]

def better (p q : P) : P :=
  if Package.compareTo q p = .lt then p else q

/-- The best of `current` and the packages, and whether a key differed on the way. -/
def bestFrom (current : P) (differs : Bool) : List P → P × Bool
  | [] => (current, differs)
  | p :: ps => bestFrom (better current p) (differs || Package.key current != Package.key p) ps

def bestOf : List P → Except SetFault P
  | [] => .error .empty
  | p :: ps =>
    match bestFrom p false ps with
    | (best, false) => .ok best
    | (_, true) => .error .ambiguous

/-- The packages in their order; packages that are equally good keep their places. -/
def sortPackages (ps : List P) : List P :=
  ps.mergeSort fun p q => (Package.compareTo p q).isLE

/-- The error as it is worded for the question. -/
def Error.askedBy (question : SetQuestion) : Error → Error
  | .set fault _ => .set fault question
  | e => e

namespace Timeline

def best (t : Timeline P) : Answer P P :=
  t.packages >>= fun ps => .ofExcept ((bestOf ps).mapError (.set · .best))

def select (f : Filter P) (t : Timeline P) : Answer P P :=
  (t.filter f).best.mapError (Error.askedBy .select)

def get (f : Filter P) (t : Timeline P) : Answer P P := do
  match ← (t.filter f).next? with
  | none => .ofExcept (.error (.set .empty .get))
  | some (p, rest) =>
    match ← rest.next? with
    | none => return p
    | some _ => .ofExcept (.error (.set .ambiguous .get))

def isEmpty (t : Timeline P) : Answer P Bool :=
  Option.isNone <$> t.next?

def contains (f : Filter P) (t : Timeline P) : Answer P Bool :=
  Option.isSome <$> (t.filter f).next?

def sorted (t : Timeline P) : Answer P (List P) :=
  sortPackages <$> t.packages

end Timeline

/-- The atom with the key of the best package that it selects. -/
def Atom.associate (a : Atom) (t : Timeline P) : Answer P Atom :=
  (fun p => { a with key := Package.key p }) <$> t.select (.ofAtom a)

end PackageAlgebra
