import PackageAlgebra.Package.Basic
import PackageAlgebra.Proofs.Text.Cut
import PackageAlgebra.Proofs.Text.Decimal
import PackageAlgebra.Proofs.Version.Order

/-!
# Keys, and the order of packages

A key is read from its printed text and from no other. Versions, versions
without their revisions and packages are each put into one line. Several may
share a place in it, and then nothing else tells them apart.
-/

namespace PackageAlgebra.PackageKey

-- ---------------------------------------------------------------------------
-- Keys and their texts
-- ---------------------------------------------------------------------------

open Text (isPartChar)

/-- The category, if there is one, and the name hold what they may. -/
structure WellFormed (key : PackageKey) : Prop where
  category : ∀ category ∈ key.category, Text.isCategoryName category.toList = true
  name : Text.isPackageName key.name.toList = true

theorem chars_of_parse {text : String} {key : PackageKey} (h : parse text = .ok key) :
    key.chars = text.toList := by
  rw [parse] at h
  split at h
  next category name hcut =>
    split at h
    · cases h
    · split at h
      · cases h
      · cases h
        simp [chars, Text.join_of_cutFirst? hcut]
  next =>
    split at h
    · cases h
    · cases h
      rfl

theorem wellFormed_of_parse {text : String} {key : PackageKey} (h : parse text = .ok key) :
    key.WellFormed := by
  rw [parse] at h
  split at h
  next category name hcut =>
    split at h
    · cases h
    next hcategory =>
      split at h
      · cases h
      next hname =>
        cases h
        exact ⟨by simpa using hcategory, by simpa using hname⟩
  next =>
    split at h
    · cases h
    next hname =>
      cases h
      exact ⟨by simp, by simpa using hname⟩

theorem parse_chars {key : PackageKey} (h : key.WellFormed) :
    parse (String.ofList key.chars) = .ok key := by
  obtain ⟨category, name⟩ := key
  have hname : Text.isPackageName name.toList = true := h.name
  have hslash : isPartChar '/' = false := by decide
  cases category with
  | none =>
    have hcut : Text.cutFirst? ['/'] name.toList = none :=
      Text.cutFirst?_of_not_mem
        (Text.not_mem_of_isPartChar (Text.isPartChar_of_isPackageName hname) hslash)
    simp [parse, chars, hcut, hname]
  | some category =>
    have hcategory : Text.isCategoryName category.toList = true := h.category category rfl
    have hcut : Text.cutFirst? ['/'] (category.toList ++ '/' :: name.toList) =
        some (category.toList, name.toList) :=
      Text.cutFirst?_append_cons
        (Text.not_mem_of_isPartChar (Text.isPartChar_of_isCategoryName hcategory) hslash) _
    simp [parse, chars, hcut, hcategory, hname]

theorem chars_eq_cons {key : PackageKey} (h : key.WellFormed) :
    ∃ c cs, key.chars = c :: cs ∧ Text.isNameStart c = true := by
  obtain ⟨category, name⟩ := key
  cases category with
  | none => exact Text.isNameWith_eq_cons h.name
  | some category =>
    obtain ⟨c, cs, hcs, hc⟩ := Text.isNameWith_eq_cons (h.category category rfl)
    exact ⟨c, cs ++ '/' :: name.toList, by simp [chars, hcs], hc⟩

theorem isPartChar_of_mem_chars {key : PackageKey} (h : key.WellFormed) :
    ∀ c ∈ key.chars, isPartChar c = true ∨ c = '/' := by
  obtain ⟨category, name⟩ := key
  have hname : ∀ c ∈ name.toList, isPartChar c = true := Text.isPartChar_of_isPackageName h.name
  intro c hc
  cases category with
  | none => exact .inl (hname c hc)
  | some category =>
    have hcategory := Text.isPartChar_of_isCategoryName (h.category category rfl)
    rw [chars, List.mem_append, List.mem_cons] at hc
    rcases hc with hc | rfl | hc
    · exact .inl (hcategory c hc)
    · exact .inr rfl
    · exact .inl (hname c hc)

/-- No mark of an atom but the slash stands in a key. -/
theorem not_mem_chars {key : PackageKey} (h : key.WellFormed) {mark : Char}
    (hpart : isPartChar mark = false) (hslash : mark ≠ '/') : mark ∉ key.chars :=
  Text.not_mem_of_isPartChar_or (isPartChar_of_mem_chars h) hpart hslash

end PackageAlgebra.PackageKey

namespace PackageAlgebra

open Std (TransCmp OrientedCmp TransOrd LawfulEqOrd)

/-- A comparison that puts its values into one line, where several may share a place. -/
structure TotalComparison (cmp : α → α → Ordering) : Prop where
  swap : ∀ a b, cmp a b = (cmp b a).swap
  trans : ∀ a b c, (cmp a b).isLE = true → (cmp b c).isLE = true → (cmp a c).isLE = true
  congr : ∀ a b, cmp a b = .eq → ∀ c, cmp a c = cmp b c

theorem totalComparison_of_transCmp (cmp : α → α → Ordering) [TransCmp cmp] :
    TotalComparison cmp where
  swap _ _ := OrientedCmp.eq_swap
  trans _ _ _ := TransCmp.isLE_trans
  congr _ _ h _ := TransCmp.congr_left h

-- ---------------------------------------------------------------------------
-- The order of keys and of packages
-- ---------------------------------------------------------------------------

namespace PackageKey

instance : TransOrd PackageKey :=
  inferInstanceAs (TransCmp (compareLex (compareOn chars) (compareOn slash?)))

theorem eq_of_chars_of_slash {a b : PackageKey} (hc : a.chars = b.chars)
    (hs : a.slash? = b.slash?) : a = b := by
  obtain ⟨ca, na⟩ := a
  obtain ⟨cb, nb⟩ := b
  cases ca <;> cases cb <;> simp only [slash?, Option.map_some, Option.map_none, reduceCtorEq,
    Option.some.injEq, chars] at hs hc
  case none.none => rw [String.toList_inj.mp hc]
  case some.some ca cb =>
    have hl : ca.toList.length = cb.toList.length := by
      rw [String.length_toList, String.length_toList, hs]
    obtain ⟨hcat, hname⟩ := List.append_inj hc hl
    rw [String.toList_inj.mp hcat, String.toList_inj.mp (List.cons_inj_right '/' |>.mp hname)]

instance : LawfulEqOrd PackageKey where
  compare_self := Std.ReflCmp.compare_self
  eq_of_compare {a b} h := by
    have h : (compare a.chars b.chars).then (compare a.slash? b.slash?) = .eq := h
    rw [Ordering.then_eq_eq] at h
    exact eq_of_chars_of_slash (LawfulEqOrd.eq_of_compare h.1) (LawfulEqOrd.eq_of_compare h.2)

end PackageKey

instance : TransCmp Identity.compareIdentities :=
  inferInstanceAs (TransCmp (compareLex (compareOn Identity.key)
    (compareLex (compareOn Identity.version) (compareOn Identity.priority))))

namespace Package

variable {P : Type} [Package P]

instance : TransCmp (compareTo : P → P → Ordering) :=
  transCmp_on Identity.compareIdentities identity

theorem isLE_of_ne_lt {p q : P} (h : compareTo q p ≠ .lt) : (compareTo p q).isLE = true :=
  Decidable.byContradiction fun hnot => h (OrientedCmp.lt_of_not_isLE hnot)

theorem comparisons_total :
    TotalComparison Version.compareVersions ∧ TotalComparison Version.compareBase ∧
      TotalComparison (compareTo : P → P → Ordering) ∧
      ∀ v w : Version, v.same w = true ↔ Version.compareVersions v w = .eq := by
  refine ⟨totalComparison_of_transCmp _, totalComparison_of_transCmp _,
    totalComparison_of_transCmp _, ?_⟩
  intro v w
  rw [Version.same, beq_iff_eq]
  rfl

end Package

end PackageAlgebra
