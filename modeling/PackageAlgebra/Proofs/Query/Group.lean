import Mathlib.Algebra.GroupWithZero.Nat
import Mathlib.Data.List.Induction
import PackageAlgebra.Proofs.Query.AttributePath
import PackageAlgebra.Proofs.Query.Timeline
import PackageAlgebra.Query.Group

/-!
# Groups part a set

The pass over a set keeps one group for each key that it has met, in the order
in which the keys came up. `groups_insert`: looking a group up in the index
finds the group that a search of all groups would. `gather_eq_ofKeys` says what
the groups are for packages whose keys are known, `result_groupFrom` that neither
the index nor what the keywords remember on the way matters.
-/

namespace PackageAlgebra

variable {P : Type}

-- ---------------------------------------------------------------------------
-- Groups and their keys
-- ---------------------------------------------------------------------------

namespace Groups

/-- Puts a package into the first group that has its key, or into one behind all others. -/
def insert (key : List Value) (p : P) : Groups P → Groups P
  | [] => [⟨key, [p]⟩]
  | group :: rest =>
    if group.key = key then group.push p :: rest else group :: insert key p rest

theorem insert_of_findIdx?_eq_some {key : List Value} {groups : Groups P} {i : Nat}
    (h : groups.findIdx? (·.key == key) = some i) (p : P) :
    groups.insert key p = groups.modify i (Group.push p) := by
  induction groups generalizing i with
  | nil => cases h
  | cons group rest ih =>
    rw [List.findIdx?_cons] at h
    by_cases hkey : group.key = key
    · simp only [hkey, beq_self_eq_true, if_true, Option.some.injEq] at h
      simp [insert, hkey, ← h]
    · simp only [beq_eq_false_iff_ne.mpr hkey, Bool.false_eq_true, if_false] at h
      obtain ⟨j, hj, rfl⟩ := Option.map_eq_some_iff.mp h
      simp [insert, hkey, ih hj]

theorem insert_of_findIdx?_eq_none {key : List Value} {groups : Groups P}
    (h : groups.findIdx? (·.key == key) = none) (p : P) :
    groups.insert key p = groups ++ [⟨key, [p]⟩] := by
  induction groups with
  | nil => rfl
  | cons group rest ih =>
    obtain ⟨hkey, hrest⟩ := List.forall_mem_cons.mp (List.findIdx?_eq_none_iff.mp h)
    rw [insert, if_neg (beq_eq_false_iff_ne.mp hkey), ih (List.findIdx?_eq_none_iff.mpr hrest)]
    rfl

end Groups

theorem Partition.groups_insert (key : List Value) (p : P) (s : Partition P) :
    (s.insert key p).groups = s.groups.insert key p := by
  unfold Partition.insert
  split
  next i h =>
    rw [s.lookup_index] at h
    exact (Groups.insert_of_findIdx?_eq_some h p).symm
  next h =>
    rw [s.lookup_index] at h
    exact (Groups.insert_of_findIdx?_eq_none h p).symm

namespace Groups

theorem eraseDups_concat [BEq α] [LawfulBEq α] (as : List α) (a : α) :
    (as ++ [a]).eraseDups = if a ∈ as then as.eraseDups else as.eraseDups ++ [a] := by
  rw [List.eraseDups_append]
  by_cases h : a ∈ as <;> simp [List.removeAll, List.eraseDups_cons, h]

theorem pairwise_idxOf_eraseDups [BEq α] [LawfulBEq α] (as : List α) :
    as.eraseDups.Pairwise fun a b => as.idxOf a < as.idxOf b := by
  induction as using List.reverseRecOn with
  | nil => exact .nil
  | append_singleton as a ih =>
    -- what is met already keeps its place
    have hkept : as.eraseDups.Pairwise fun b c => (as ++ [a]).idxOf b < (as ++ [a]).idxOf c := by
      refine ih.imp_of_mem fun hb hc hlt => ?_
      rwa [List.idxOf_append, List.idxOf_append, if_pos (List.mem_eraseDups.mp hb),
        if_pos (List.mem_eraseDups.mp hc)]
    rw [eraseDups_concat]
    split
    · exact hkept
    next hnew =>
      refine List.pairwise_append.mpr ⟨hkept, List.pairwise_singleton _ _, ?_⟩
      intro b hb c hc
      have hb : b ∈ as := List.mem_eraseDups.mp hb
      obtain rfl := List.mem_singleton.mp hc
      rw [List.idxOf_append, List.idxOf_append, if_pos hb, if_neg hnew]
      exact Nat.lt_of_lt_of_le (List.idxOf_lt_length_iff.mpr hb) (Nat.le_add_left _ _)

theorem nodup_eraseDups [BEq α] [LawfulBEq α] (as : List α) : as.eraseDups.Nodup := by
  refine (pairwise_idxOf_eraseDups as).imp fun {a b} hlt => ?_
  rintro rfl
  exact Nat.lt_irrefl _ hlt

-- ---------------------------------------------------------------------------
-- One group for each key
-- ---------------------------------------------------------------------------

/-- A group for each of the keys: the packages that have it, in their order. -/
def ofKeys (keyOf : P → List Value) (ps : List P) (keys : List (List Value)) : Groups P :=
  keys.map fun key => ⟨key, ps.filter (keyOf · = key)⟩

variable {keyOf : P → List Value} {ps : List P}

theorem map_key_ofKeys (keys : List (List Value)) :
    (ofKeys keyOf ps keys).map (·.key) = keys := by
  rw [ofKeys, List.map_map]
  exact List.map_id keys

theorem ofKeys_concat_of_not_mem (ps : List P) {p : P} {keys : List (List Value)}
    (h : keyOf p ∉ keys) :
    ofKeys keyOf (ps ++ [p]) keys = ofKeys keyOf ps keys := by
  refine List.map_congr_left fun key hkey => ?_
  have hne : keyOf p ≠ key := fun heq => h (heq ▸ hkey)
  simp [hne]

/-- A new key gets a group of its own, behind the others. -/
theorem insert_ofKeys (p : P) {keys : List (List Value)} (hnodup : keys.Nodup)
    (hnew : keyOf p ∉ keys → ∀ q ∈ ps, keyOf q ≠ keyOf p) :
    (ofKeys keyOf ps keys).insert (keyOf p) p =
      ofKeys keyOf (ps ++ [p]) (if keyOf p ∈ keys then keys else keys ++ [keyOf p]) := by
  induction keys with
  | nil =>
    have hnone : ps.filter (keyOf · = keyOf p) = [] := by simpa using hnew (by simp)
    simp [ofKeys, Groups.insert, hnone]
  | cons key keys ih =>
    obtain ⟨hfirst, hnodup⟩ := List.nodup_cons.mp hnodup
    by_cases h : key = keyOf p
    · subst h
      have hrest := ofKeys_concat_of_not_mem ps hfirst
      simp only [ofKeys, List.map_cons, Groups.insert, Group.push, List.mem_cons, true_or,
        if_true] at hrest ⊢
      rw [hrest]
      simp
    · have hne : keyOf p ≠ key := fun heq => h heq.symm
      have ih := ih hnodup fun hmem => hnew (by simp [hne, hmem])
      simp only [ofKeys, List.map_cons, Groups.insert, h, if_false] at ih ⊢
      rw [ih]
      by_cases hmem : keyOf p ∈ keys <;> simp [hmem, hne]

def gather (keyOf : P → List Value) (ps : List P) : Groups P :=
  ps.foldl (fun groups p => Groups.insert (keyOf p) p groups) []

theorem gather_concat (keyOf : P → List Value) (ps : List P) (p : P) :
    gather keyOf (ps ++ [p]) = (gather keyOf ps).insert (keyOf p) p :=
  List.foldl_append ..

theorem gather_eq_ofKeys (keyOf : P → List Value) (ps : List P) :
    gather keyOf ps = ofKeys keyOf ps (ps.map keyOf).eraseDups := by
  induction ps using List.reverseRecOn with
  | nil => rfl
  | append_singleton ps p ih =>
    have hnew : keyOf p ∉ (ps.map keyOf).eraseDups → ∀ q ∈ ps, keyOf q ≠ keyOf p := by
      intro hmem q hq heq
      exact hmem (List.mem_eraseDups.mpr (heq ▸ List.mem_map_of_mem hq))
    rw [gather_concat, ih, insert_ofKeys p (nodup_eraseDups _) hnew, List.map_append,
      List.map_singleton, eraseDups_concat]
    simp only [List.mem_eraseDups]

theorem perm_insert (key : List Value) (p : P) (groups : Groups P) :
    ((groups.insert key p).flatMap (·.packages)).Perm (p :: groups.flatMap (·.packages)) := by
  induction groups with
  | nil => exact .refl _
  | cons group rest ih =>
    rw [Groups.insert]
    split
    · simp only [Group.push, List.flatMap_cons, List.append_assoc, List.singleton_append]
      exact List.perm_middle
    · simp only [List.flatMap_cons]
      exact (ih.append_left group.packages).trans List.perm_middle

theorem perm_gather (keyOf : P → List Value) (ps : List P) :
    ((gather keyOf ps).flatMap (·.packages)).Perm ps := by
  induction ps using List.reverseRecOn with
  | nil => exact .refl _
  | append_singleton ps p ih =>
    rw [gather_concat]
    exact (perm_insert (keyOf p) p _).trans
      ((ih.cons p).trans (List.perm_append_singleton p ps).symm)

-- ---------------------------------------------------------------------------
-- A set in parts
-- ---------------------------------------------------------------------------

/-- The groups part the packages by their keys. -/
structure Parts (keyOf : P → List Value) (ps : List P) (groups : Groups P) : Prop where
  distinct : (groups.map (·.key)).Nodup
  nonempty : ∀ group ∈ groups, group.packages ≠ []
  /-- A group holds what has its key, in the order of the set. -/
  packages : ∀ group ∈ groups, group.packages = ps.filter (keyOf · = group.key)
  /-- Every package of the set has one place in one group. -/
  places : (groups.flatMap (·.packages)).Perm ps
  /-- Groups come in the order of their first packages. -/
  order : groups.Pairwise fun g h => (ps.map keyOf).idxOf g.key < (ps.map keyOf).idxOf h.key
  sizes : (groups.map (·.packages.length)).sum = ps.length
  get : ∀ (key : List Value) (qs : List P), groups.get? key = some qs ↔ ⟨key, qs⟩ ∈ groups

theorem get?_eq_some_iff {groups : Groups P} (h : (groups.map (·.key)).Nodup) (key : List Value)
    (qs : List P) : groups.get? key = some qs ↔ ⟨key, qs⟩ ∈ groups := by
  induction groups with
  | nil => simp [get?]
  | cons group rest ih =>
    obtain ⟨hfirst, hrest⟩ := List.nodup_cons.mp h
    have ih := ih hrest
    obtain ⟨first, ps⟩ := group
    by_cases hkey : first = key
    · subst hkey
      have hnot : ∀ qs, (⟨first, qs⟩ : Group P) ∉ rest := fun qs hmem =>
        hfirst (List.mem_map.mpr ⟨_, hmem, rfl⟩)
      simp [get?, hnot, eq_comm]
    · have hne : ¬key = first := fun heq => hkey heq.symm
      simpa [get?, hkey, hne] using ih

theorem parts_gather (keyOf : P → List Value) (ps : List P) :
    Parts keyOf ps (gather keyOf ps) := by
  have hplaces := perm_gather keyOf ps
  have horder := pairwise_idxOf_eraseDups (ps.map keyOf)
  have hnodup : ((ofKeys keyOf ps (ps.map keyOf).eraseDups).map (·.key)).Nodup := by
    rw [map_key_ofKeys]
    exact nodup_eraseDups _
  rw [gather_eq_ofKeys] at hplaces ⊢
  constructor
  · exact hnodup
  · intro group hgroup
    obtain ⟨key, hkey, rfl⟩ := List.mem_map.mp hgroup
    obtain ⟨p, hp, rfl⟩ := List.mem_map.mp (List.mem_eraseDups.mp hkey)
    exact List.ne_nil_of_mem (List.mem_filter.mpr ⟨hp, by simp⟩)
  · intro group hgroup
    obtain ⟨key, -, rfl⟩ := List.mem_map.mp hgroup
    rfl
  · exact hplaces
  · exact List.pairwise_map.mpr horder
  · rw [← hplaces.length_eq, List.length_flatMap]
  · exact get?_eq_some_iff hnodup

end Groups

-- ---------------------------------------------------------------------------
-- The key of a record
-- ---------------------------------------------------------------------------

namespace AttributePath

section

variable [Package P] {p : P} {path : AttributePath}

theorem resolveAll_error {e : Error} (h : (path.resolve p).1 = .error e)
    (rest : List AttributePath) :
    resolveAll p (path :: rest) = (.error e, (path.resolve p).2 :: rest) := by
  have hresolve : path.resolve p = (.error e, (path.resolve p).2) := Prod.ext h rfl
  rw [resolveAll, hresolve]

theorem resolveAll_ok {value : Value} (h : (path.resolve p).1 = .ok value)
    (rest : List AttributePath) :
    resolveAll p (path :: rest) =
      ((resolveAll p rest).1.map (value :: ·), (path.resolve p).2 :: (resolveAll p rest).2) := by
  have hresolve : path.resolve p = (.ok value, (path.resolve p).2) := Prod.ext h rfl
  rw [resolveAll, hresolve]

@[simp] theorem names_resolveAll (p : P) (paths : List AttributePath) :
    (resolveAll p paths).2.map (·.name) = paths.map (·.name) := by
  induction paths with
  | nil => rfl
  | cons path rest ih =>
    cases h : (path.resolve p).1 with
    | error e => simp [resolveAll_error h]
    | ok value => simp [resolveAll_ok h, ih]

end

theorem justified_resolveAll {paths : List AttributePath} (h : ∀ path ∈ paths, path.Justified)
    (r : PackageRecord) : ∀ path ∈ (resolveAll r paths).2, path.Justified := by
  induction paths with
  | nil => exact h
  | cons path rest ih =>
    obtain ⟨hfirst, hrest⟩ := List.forall_mem_cons.mp h
    cases hvalue : (path.resolve r).1 with
    | error e =>
      rw [resolveAll_error hvalue]
      exact List.forall_mem_cons.mpr ⟨hfirst.resolve r, hrest⟩
    | ok value =>
      rw [resolveAll_ok hvalue]
      exact List.forall_mem_cons.mpr ⟨hfirst.resolve r, ih hrest⟩

end AttributePath

namespace PackageRecord

open AttributePath (ofName resolveAll resolveAll_error resolveAll_ok)

/-- The values that the keywords name on the record; the first that names none is the error. -/
def valuesOf (names : List String) (r : PackageRecord) : Except Error (List Value) :=
  names.mapM fun name => ((ofName name).resolve r).1

theorem valuesOf_cons (name : String) (names : List String) (r : PackageRecord) :
    r.valuesOf (name :: names) =
      ((ofName name).resolve r).1 >>= fun value => (r.valuesOf names).map (value :: ·) := by
  rw [valuesOf, List.mapM_cons, ← valuesOf]
  rfl

theorem length_of_valuesOf {names : List String} {r : PackageRecord} {values : List Value}
    (h : r.valuesOf names = .ok values) : values.length = names.length := by
  induction names generalizing values with
  | nil =>
    cases h
    rfl
  | cons name names ih =>
    rw [valuesOf_cons] at h
    cases hvalue : ((ofName name).resolve r).1 with
    | error e =>
      rw [hvalue] at h
      cases h
    | ok value =>
      rw [hvalue] at h
      cases hrest : r.valuesOf names with
      | error e =>
        rw [hrest] at h
        cases h
      | ok rest =>
        rw [hrest] at h
        cases h
        rw [List.length_cons, List.length_cons, ih hrest]

theorem result_resolveAll {paths : List AttributePath} (h : ∀ path ∈ paths, path.Justified)
    (r : PackageRecord) : (resolveAll r paths).1 = r.valuesOf (paths.map (·.name)) := by
  induction paths with
  | nil => rfl
  | cons path rest ih =>
    obtain ⟨hfirst, hrest⟩ := List.forall_mem_cons.mp h
    rw [List.map_cons, valuesOf_cons, ← hfirst.resolve_eq r, ← ih hrest]
    cases hvalue : (path.resolve r).1 with
    | error e =>
      rw [resolveAll_error hvalue]
      rfl
    | ok value =>
      rw [resolveAll_ok hvalue]
      rfl

end PackageRecord

-- ---------------------------------------------------------------------------
-- The pass over a set
-- ---------------------------------------------------------------------------

namespace Timeline

open Groups (gather Parts)

def addItem (names : List String) (groups : Groups PackageRecord) :
    Except Error PackageRecord → Except Error (Groups PackageRecord)
  | .error e => .error e
  | .ok r => (r.valuesOf names).map fun key => groups.insert key r

/-- Neither the calls on the way, nor the index, nor what the keywords remember count. -/
theorem result_groupFrom {paths : List AttributePath} (h : ∀ path ∈ paths, path.Justified)
    (s : Partition PackageRecord) (t : Timeline PackageRecord) :
    (groupFrom s paths t).result =
      t.items.foldlM (addItem (paths.map (·.name))) s.groups := by
  induction t generalizing s paths with
  | nil => rfl
  | cons event t ih =>
    match event with
    | .call c => exact ih h s
    | .item (.error e) => rfl
    | .item (.ok r) =>
      have hkey := PackageRecord.result_resolveAll h r
      have hnames := AttributePath.names_resolveAll r paths
      have hrest := AttributePath.justified_resolveAll h r
      rw [groupFrom, items_item, List.foldlM_cons, addItem, ← hkey]
      cases hresolve : AttributePath.resolveAll r paths with
      | mk key paths' =>
        rw [hresolve] at hnames hrest
        cases key with
        | error e => rfl
        | ok key =>
          rw [← hnames]
          exact (ih hrest _).trans (by rw [Partition.groups_insert]; rfl)

theorem foldlM_addItem {names : List String} {keyOf : PackageRecord → List Value}
    {rs : List PackageRecord} (h : ∀ r ∈ rs, r.valuesOf names = .ok (keyOf r))
    (items : List (Except Error PackageRecord)) (groups : Groups PackageRecord) :
    (rs.map Except.ok ++ items).foldlM (addItem names) groups =
      items.foldlM (addItem names)
        (rs.foldl (fun groups r => Groups.insert (keyOf r) r groups) groups) := by
  induction rs generalizing groups with
  | nil => rfl
  | cons r rs ih =>
    obtain ⟨hfirst, hrest⟩ := List.forall_mem_cons.mp h
    rw [List.map_cons, List.cons_append, List.foldlM_cons, addItem, hfirst]
    exact ih hrest _

theorem result_groupBy (names : List String) (t : Timeline PackageRecord) :
    (t.groupBy names).result = t.items.foldlM (addItem names) [] := by
  have hnew : ∀ path ∈ names.map AttributePath.ofName, path.Justified := by
    simpa using fun name _ => AttributePath.justified_ofName name
  have hnames : (names.map AttributePath.ofName).map (·.name) = names := by
    rw [List.map_map]
    exact List.map_id names
  rw [groupBy, result_groupFrom hnew, hnames]
  rfl

theorem result_groupBy_ok {names : List String} {keyOf : PackageRecord → List Value}
    {rs : List PackageRecord} {t : Timeline PackageRecord} (ht : t.items = rs.map .ok)
    (h : ∀ r ∈ rs, r.valuesOf names = .ok (keyOf r)) :
    (t.groupBy names).result = .ok (gather keyOf rs) := by
  have hpass := foldlM_addItem h [] []
  rw [List.append_nil] at hpass
  rw [result_groupBy, ht, hpass]
  rfl

theorem result_groupBy_error {names : List String} {rs : List PackageRecord}
    {i : Except Error PackageRecord} {rest : List (Except Error PackageRecord)} {e : Error}
    {t : Timeline PackageRecord} (ht : t.items = rs.map .ok ++ i :: rest)
    (h : ∀ r ∈ rs, ∃ key, r.valuesOf names = .ok key) (hi : (i >>= (·.valuesOf names)) = .error e) :
    (t.groupBy names).result = .error e := by
  choose! keyOf hkeyOf using h
  have hitem : ∀ groups, addItem names groups i = .error e := by
    intro groups
    cases i with
    | error first =>
      cases (Except.error.inj hi : first = e)
      rfl
    | ok r =>
      have hi : r.valuesOf names = .error e := hi
      rw [addItem, hi]
      rfl
  rw [result_groupBy, ht, foldlM_addItem hkeyOf, List.foldlM_cons, hitem]
  rfl

/-- If every package has all of the attributes, the groups part the set by them. Otherwise the
first item that is an error, or a package that lacks one, is the answer. -/
theorem groupBy_parts (names : List String) (t : Timeline PackageRecord) :
    (∀ (rs : List PackageRecord) (keyOf : PackageRecord → List Value), t.items = rs.map .ok →
      (∀ r ∈ rs, r.valuesOf names = .ok (keyOf r)) →
      ∃ groups, (t.groupBy names).result = .ok groups ∧ groups.Parts keyOf rs ∧
        ∀ group ∈ groups, group.key.length = names.length) ∧
    ∀ (rs : List PackageRecord) (i : Except Error PackageRecord)
      (rest : List (Except Error PackageRecord)) (e : Error), t.items = rs.map .ok ++ i :: rest →
      (∀ r ∈ rs, ∃ key, r.valuesOf names = .ok key) → (i >>= (·.valuesOf names)) = .error e →
      (t.groupBy names).result = .error e := by
  constructor
  · intro rs keyOf ht hkeys
    have hparts := Groups.parts_gather keyOf rs
    refine ⟨gather keyOf rs, result_groupBy_ok ht hkeys, hparts, ?_⟩
    intro group hgroup
    obtain ⟨r, hr⟩ := List.exists_mem_of_ne_nil _ (hparts.nonempty group hgroup)
    rw [hparts.packages group hgroup, List.mem_filter, decide_eq_true_eq] at hr
    obtain ⟨hmem, hkey⟩ := hr
    exact hkey ▸ PackageRecord.length_of_valuesOf (hkeys r hmem)
  · intro rs i rest e ht hkeys hi
    exact result_groupBy_error ht hkeys hi

theorem groupBy_parts_slots :
    ∃ v : Version,
      let r (slot : String) : PackageRecord := { PackageRecord.bare ⟨some "a", "b"⟩ v with slot }
      let t := (ofPackages [r "1", r "0", r "1"]).filter (.ofAtom (.ofKey ⟨none, "b"⟩))
      (∃ groups, (t.groupBy ["slot", "slot"]).result = .ok groups ∧
        groups.Parts (fun r => [.text r.slot, .text r.slot]) [r "1", r "0", r "1"] ∧
        ∀ group ∈ groups, group.key.length = 2) ∧
      (t.groupBy ["slot", "metadata_X"]).result =
        .error (.attributeNotFound "metadata_X" ⟨some "a", "b"⟩) := by
  refine ⟨⟨⟨['1'], rfl⟩, [], none, [], 0⟩, ?_⟩
  intro r t
  have hslots : ∀ p ∈ [r "1", r "0", r "1"],
      p.valuesOf ["slot", "slot"] = .ok [.text p.slot, .text p.slot] := by
    simp only [List.mem_cons, List.not_mem_nil, or_false]
    rintro p (rfl | rfl | rfl) <;> rfl
  have hlacks : (r "1").valuesOf ["slot", "metadata_X"] =
      .error (.attributeNotFound "metadata_X" ⟨some "a", "b"⟩) := by
    have hX : "X" ≠ "" := by decide
    have hnames := PackageRecord.names_metadata hX (r "1")
    have hvalue := (AttributePath.result_resolve_ofName_iff _ _ _).mpr hnames
    rw [PackageRecord.valuesOf_cons, PackageRecord.valuesOf_cons]
    exact congrArg (fun a => Except.map (Value.text "1" :: ·) (a >>= fun value => .ok [value]))
      hvalue
  exact ⟨(groupBy_parts ["slot", "slot"] t).1 _ _ rfl hslots,
    (groupBy_parts ["slot", "metadata_X"] t).2 [] (.ok (r "1")) _ _ rfl (by simp) hlacks⟩

end Timeline

end PackageAlgebra
