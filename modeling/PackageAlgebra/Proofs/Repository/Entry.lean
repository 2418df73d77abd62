import PackageAlgebra.Proofs.Text.Cut
import PackageAlgebra.Proofs.Version.Grammar
import PackageAlgebra.Repository.Config

/-!
# The text of an entry

An entry is written as its name with `=`, its path, and its priority behind `:`
(`Spells`). The path may hold both marks, unless it would be read otherwise. The
reader accepts these texts and no others, and each is the text of one entry
only.
-/

namespace PackageAlgebra

open Version (IsRun number?_eq_some_iff)

-- ---------------------------------------------------------------------------
-- Priorities
-- ---------------------------------------------------------------------------

namespace Text

/-- The texts of a number of 32 bits: its digits, with a sign or without one. Zeros may stand in
front of them. -/
inductive WritesInt32 (n : Int32) : List Char → Prop
  | plain {ds : List Char} : IsRun isDigit ds → (numberOf ds : Int) = n.toInt → WritesInt32 n ds
  | plus {ds : List Char} : IsRun isDigit ds → (numberOf ds : Int) = n.toInt →
      WritesInt32 n ('+' :: ds)
  | minus {ds : List Char} : IsRun isDigit ds → -(numberOf ds : Int) = n.toInt →
      WritesInt32 n ('-' :: ds)

theorem ofInt_eq_some_iff {value : Int} {n : Int32} :
    (if Int32.minValue.toInt ≤ value && value ≤ Int32.maxValue.toInt then some (Int32.ofInt value)
      else none) = some n ↔ value = n.toInt := by
  simp only [Bool.and_eq_true, decide_eq_true_eq]
  constructor
  · intro h
    split at h
    next hrange =>
      cases h
      exact (Int32.toInt_ofInt_of_le hrange.1 (Int.lt_add_one_of_le hrange.2)).symm
    next => cases h
  · rintro rfl
    rw [if_pos ⟨n.minValue_le_toInt, n.toInt_le⟩, Int32.ofInt_toInt]

theorem signed_eq_some_iff (sign : Int → Int) {ds : List Char} {n : Int32} :
    (((number? ds).bind fun m => some (m : Int)).map sign).bind (fun value =>
      if Int32.minValue.toInt ≤ value && value ≤ Int32.maxValue.toInt then
        some (Int32.ofInt value) else none) = some n ↔
      IsRun isDigit ds ∧ sign (numberOf ds) = n.toInt := by
  simp only [Option.bind_eq_some_iff, Option.map_eq_some_iff, Option.some.injEq, ofInt_eq_some_iff,
    number?_eq_some_iff]
  constructor
  · rintro ⟨_, ⟨_, ⟨_, ⟨hrun, rfl⟩, rfl⟩, rfl⟩, hn⟩
    exact ⟨hrun, hn⟩
  · rintro ⟨hrun, hn⟩
    exact ⟨_, ⟨_, ⟨_, ⟨hrun, rfl⟩, rfl⟩, rfl⟩, hn⟩

theorem int32?_eq_some_iff {cs : List Char} {n : Int32} :
    int32? cs = some n ↔ WritesInt32 n cs := by
  rw [int32?.eq_def]
  split
  · refine (signed_eq_some_iff _).trans ⟨fun h => .minus h.1 h.2, fun h => ?_⟩
    cases h with
    | plain hrun _ => exact absurd (hrun.digits '-' List.mem_cons_self) (by decide)
    | minus hrun hn => exact ⟨hrun, hn⟩
  · refine (signed_eq_some_iff _).trans ⟨fun h => .plus h.1 h.2, fun h => ?_⟩
    cases h with
    | plain hrun _ => exact absurd (hrun.digits '+' List.mem_cons_self) (by decide)
    | plus hrun hn => exact ⟨hrun, hn⟩
  next hminus hplus =>
    refine (signed_eq_some_iff _).trans ⟨fun h => .plain h.1 h.2, fun h => ?_⟩
    cases h with
    | plain hrun hn => exact ⟨hrun, hn⟩
    | plus => exact absurd rfl (hplus _)
    | minus => exact absurd rfl (hminus _)

theorem writesInt32_toString (n : Int32) : WritesInt32 n (toString n).toList := by
  have hdigits := fun m : Nat => (number?_eq_some_iff _ _).mp (number?_digits m)
  show WritesInt32 n (toString n.toInt).toList
  rw [Int.toString_eq_repr, Int.repr_eq_if]
  split
  next hpos =>
    obtain ⟨hrun, hn⟩ := hdigits n.toInt.toNat
    rw [Nat.toList_repr]
    exact .plain hrun ((congrArg Nat.cast hn).trans (Int.toNat_of_nonneg hpos))
  next hneg =>
    obtain ⟨hrun, hn⟩ := hdigits (-n.toInt).toNat
    rw [String.toList_append, Nat.toList_repr]
    refine .minus hrun ?_
    show -(numberOf (digits (-n.toInt).toNat) : Int) = n.toInt
    omega

theorem WritesInt32.not_mem {n : Int32} {cs : List Char} {mark : Char} (h : WritesInt32 n cs)
    (hdigit : isDigit mark = false) (hplus : mark ≠ '+') (hminus : mark ≠ '-') : mark ∉ cs := by
  have hdigits : ∀ {ds}, IsRun isDigit ds → mark ∉ ds := by
    intro ds hrun hmem
    rw [hrun.digits mark hmem] at hdigit
    cases hdigit
  cases h with
  | plain hrun _ => exact hdigits hrun
  | plus hrun _ => simp [hplus, hdigits hrun]
  | minus hrun _ => simp [hminus, hdigits hrun]

end Text

namespace RepositoryEntry

open Text (WritesInt32)

def label (name : Option String) : String :=
  name.elim "" (· ++ "=")

def IsName (name : Option String) : Prop :=
  ∀ n ∈ name, n ≠ "" ∧ '=' ∉ n.toList

/-- The name and the path are told apart when they stand behind each other. -/
structure Fits (name : Option String) (path : String) : Prop where
  isName : IsName name
  path_ne : path ≠ ""
  unnamed : name = none → '=' ∉ path.toList

/-- What stands behind the last colon is a priority. -/
def EndsInPriority (path : List Char) : Prop :=
  ∃ before number priority, path = before ++ ':' :: number ∧ ':' ∉ number ∧
    WritesInt32 priority number

/-- The texts of an entry. -/
inductive Spells : RepositoryEntry → String → Prop
  | unranked {name : Option String} {path : String} : Fits name path →
      ¬EndsInPriority path.toList → Spells ⟨name, path, none⟩ (label name ++ path)
  | ranked {name : Option String} {path : String} {number : List Char} {priority : Int32} :
      Fits name path → WritesInt32 priority number →
      Spells ⟨name, path, some priority⟩ (label name ++ path ++ ":" ++ String.ofList number)

-- ---------------------------------------------------------------------------
-- Reading
-- ---------------------------------------------------------------------------

theorem splitPriority_of_writes {path number : List Char} {priority : Int32}
    (h : WritesInt32 priority number) :
    splitPriority (path ++ ':' :: number) = (path, some priority) := by
  have hcolon : ':' ∉ number := h.not_mem (by decide) (by decide) (by decide)
  have hread : Text.int32? number = some priority := Text.int32?_eq_some_iff.mpr h
  rw [splitPriority, Text.cutLast?_append_cons hcolon]
  simp only [hread]

theorem splitPriority_of_not_endsInPriority {path : List Char} (h : ¬EndsInPriority path) :
    splitPriority path = (path, none) := by
  fun_cases splitPriority path with
  | case1 => rfl
  | case2 before number hcut priority hread =>
    obtain ⟨hpath, hcolon⟩ := Text.join_of_cutLast? hcut
    exact absurd ⟨before, number, priority, hpath, hcolon, Text.int32?_eq_some_iff.mp hread⟩ h
  | case3 => rfl

instance (path : List Char) : Decidable (EndsInPriority path) :=
  decidable_of_iff ((splitPriority path).2.isSome = true) <| by
    by_cases hends : EndsInPriority path
    · obtain ⟨before, number, priority, hpath, -, hwrites⟩ := id hends
      have hsplit : splitPriority path = (before, some priority) :=
        hpath ▸ splitPriority_of_writes hwrites
      simp [hends, hsplit]
    · simp [hends, splitPriority_of_not_endsInPriority hends]

section

variable {text : String} {name : Option String} {rest : List Char}

/-- A text that does not begin with the mark has a name in front of it, or has no mark at all. -/
theorem exists_label (h : text.toList.head? ≠ some '=') :
    ∃ name rest, text.toList = (label name).toList ++ rest ∧ IsName name ∧
      (name = none → '=' ∉ rest) := by
  cases hcut : Text.cutFirst? ['='] text.toList with
  | none =>
    exact ⟨none, text.toList, rfl, by simp [IsName], fun _ => Text.cutFirst?_eq_none_iff.mp hcut⟩
  | some parts =>
    obtain ⟨front, rest⟩ := parts
    obtain ⟨htext, hfront⟩ := Text.cutFirst?_eq_some_iff.mp hcut
    have hne : front ≠ [] := by
      rintro rfl
      exact h (by rw [htext]; rfl)
    refine ⟨some (String.ofList front), rest, by simp [htext, label], ?_, by simp⟩
    simpa [IsName] using ⟨hne, hfront⟩

theorem parse_of_head?_eq (h : text.toList.head? = some '=') :
    parse text = .error (.emptyName text) := by
  obtain ⟨rest, htext⟩ := List.head?_eq_some_iff.mp h
  have hcut : Text.cutFirst? ['='] text.toList = some ([], rest) := by
    rw [htext]
    exact Text.cutFirst?_self '=' [] rest
  rw [parse]
  simp only [hcut]

theorem parse_label {path : List Char} {priority : Option Int32} (hname : IsName name)
    (hrest : name = none → '=' ∉ rest) (htext : text.toList = (label name).toList ++ rest)
    (hsplit : splitPriority rest = (path, priority)) :
    parse text = if path = [] then .error (.missingPath text)
      else .ok ⟨name, String.ofList path, priority⟩ := by
  cases name with
  | none =>
    obtain rfl : text.toList = rest := htext
    have hcut : Text.cutFirst? ['='] text.toList = none := Text.cutFirst?_of_not_mem (hrest rfl)
    cases path <;> simp [parse, hcut, hsplit]
  | some name =>
    obtain ⟨hne, hmark⟩ := hname name rfl
    have hchars : name.toList ≠ [] := by simpa using hne
    have hcut : Text.cutFirst? ['='] text.toList = some (name.toList, rest) := by
      have htext : text.toList = name.toList ++ '=' :: rest := by simp [htext, label]
      rw [htext]
      exact Text.cutFirst?_append_cons hmark rest
    cases path <;> simp [parse, hcut, hsplit]

end

theorem parse_of_spells {e : RepositoryEntry} {text : String} (h : e.Spells text) :
    parse text = .ok e := by
  cases h with
  | @unranked name path hfits hends =>
    have hpath : path.toList ≠ [] := by simpa using hfits.path_ne
    rw [parse_label hfits.isName hfits.unnamed String.toList_append
      (splitPriority_of_not_endsInPriority hends), if_neg hpath, String.ofList_toList]
  | @ranked name path number priority hfits hwrites =>
    have hpath : path.toList ≠ [] := by simpa using hfits.path_ne
    have hmark : '=' ∉ number := hwrites.not_mem (by decide) (by decide) (by decide)
    have hrest : name = none → '=' ∉ path.toList ++ ':' :: number := by
      intro hnone
      simpa [hmark] using hfits.unnamed hnone
    rw [parse_label hfits.isName hrest (by simp [String.toList_append])
      (splitPriority_of_writes hwrites), if_neg hpath, String.ofList_toList]

theorem spells_of_parse {text : String} {e : RepositoryEntry} (h : parse text = .ok e) :
    e.Spells text := by
  have hhead : text.toList.head? ≠ some '=' := by
    intro hhead
    rw [parse_of_head?_eq hhead] at h
    cases h
  obtain ⟨name, rest, htext, hname, hrest⟩ := exists_label hhead
  by_cases hends : EndsInPriority rest
  · obtain ⟨path, number, priority, rfl, -, hwrites⟩ := hends
    rw [parse_label hname hrest htext (splitPriority_of_writes hwrites)] at h
    split at h
    · cases h
    next hpath =>
      cases h
      have hunnamed : name = none → '=' ∉ (String.ofList path).toList := by
        intro hnone hmem
        exact hrest hnone (List.mem_append_left _ (by simpa using hmem))
      have htext : text = label name ++ String.ofList path ++ ":" ++ String.ofList number := by
        rw [← String.toList_inj, htext]
        simp [String.toList_append]
      exact htext ▸ .ranked ⟨hname, by simpa using hpath, hunnamed⟩ hwrites
  · rw [parse_label hname hrest htext (splitPriority_of_not_endsInPriority hends)] at h
    split at h
    · cases h
    next hpath =>
      cases h
      have htext : text = label name ++ String.ofList rest := by
        rw [← String.toList_inj, htext]
        simp [String.toList_append]
      refine htext ▸ .unranked ⟨hname, by simpa using hpath, ?_⟩ ?_
      · simpa using hrest
      · simpa using hends

theorem parse_eq_ok_iff {text : String} {e : RepositoryEntry} :
    parse text = .ok e ↔ e.Spells text :=
  ⟨spells_of_parse, parse_of_spells⟩

/-- What is refused lacks its name or its path. -/
theorem parse_error {text : String} {e : ConfigError} (h : parse text = .error e) :
    e = if text.toList.head? = some '=' then .emptyName text else .missingPath text := by
  by_cases hhead : text.toList.head? = some '='
  · rw [parse_of_head?_eq hhead] at h
    cases h
    rw [if_pos hhead]
  · obtain ⟨name, rest, htext, hname, hrest⟩ := exists_label hhead
    obtain ⟨⟨path, priority⟩, hsplit⟩ : ∃ parts, splitPriority rest = parts := ⟨_, rfl⟩
    rw [parse_label hname hrest htext hsplit] at h
    rw [if_neg hhead]
    split at h
    · cases h
      rfl
    · cases h

/-- An entry is read from its name, its path and its priority, printed or spelled otherwise, and
from no other text. A text that is none lacks its name if it begins with the mark, and else its
path. -/
theorem arguments_decoded (name : Option String) (path : String) (priority : Int32)
    (text : String) (e : RepositoryEntry) :
    (Fits name path →
      parse (label name ++ path ++ ":" ++ toString priority) = .ok ⟨name, path, some priority⟩) ∧
      (Fits name path → ¬EndsInPriority path.toList →
        parse (label name ++ path) = .ok ⟨name, path, none⟩) ∧
      (parse text = .ok e ↔ e.Spells text) ∧
      ((¬∃ e, Spells e text) → parse text =
        .error (if text.toList.head? = some '=' then .emptyName text else .missingPath text)) := by
  refine ⟨fun hfits => ?_, fun hfits hends => ?_, parse_eq_ok_iff, fun hnone => ?_⟩
  · have hspells := Spells.ranked hfits (Text.writesInt32_toString priority)
    rw [String.ofList_toList] at hspells
    exact parse_of_spells hspells
  · exact parse_of_spells (.unranked hfits hends)
  · cases hparse : parse text with
    | ok e => exact absurd ⟨e, spells_of_parse hparse⟩ hnone
    | error e => rw [parse_error hparse]

theorem arguments_decoded_marks :
    Fits (some "x") "c:/a=b:7z" ∧ ¬EndsInPriority "c:/a=b:7z".toList ∧
      parse "x=c:/a=b:7z:-2147483648" = .ok ⟨some "x", "c:/a=b:7z", some Int32.minValue⟩ ∧
      parse "x=c:/a=b:7z" = .ok ⟨some "x", "c:/a=b:7z", none⟩ ∧
      Spells ⟨some "x", "c:/a=b:7z", some 5⟩ "x=c:/a=b:7z:+05" ∧
      (¬∃ e, Spells e "=c:/a") ∧ parse "=c:/a" = .error (.emptyName "=c:/a") := by
  have hfits : Fits (some "x") "c:/a=b:7z" := ⟨by simp [IsName], by decide, by simp⟩
  have hends : ¬EndsInPriority "c:/a=b:7z".toList := by decide
  have hnone : ¬∃ e, Spells e "=c:/a" := by
    rintro ⟨e, hspells⟩
    cases (parse_of_head?_eq rfl).symm.trans (parse_of_spells hspells)
  obtain ⟨hranked, hunranked, hspells, -⟩ := arguments_decoded (some "x") "c:/a=b:7z"
    Int32.minValue "x=c:/a=b:7z:+05" ⟨some "x", "c:/a=b:7z", some 5⟩
  obtain ⟨-, -, -, hrefused⟩ := arguments_decoded none "" 0 "=c:/a" ⟨none, "", none⟩
  exact ⟨hfits, hends, hranked hfits, hunranked hfits hends, hspells.mp rfl, hnone,
    hrefused hnone⟩

end RepositoryEntry

end PackageAlgebra
