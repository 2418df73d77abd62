import PackageAlgebra.Atom.Parser
import PackageAlgebra.Atom.Printer
import PackageAlgebra.Proofs.Package.Basic
import PackageAlgebra.Proofs.Version.Spelling

/-!
# The parts of atoms

Each optional part of an atom is cut off again where the printer put it on,
because the mark in front of the part stands in none of the parts before it.
-/

namespace PackageAlgebra

open Text (StopsAt isPartChar not_mem_of_isPartChar)

theorem mem_elim {o : Option α} {write : α → List Char} {c : Char} (h : c ∈ o.elim [] write) :
    ∃ x ∈ o, c ∈ write x := by
  cases o with
  | none => cases h
  | some x => exact ⟨x, rfl, h⟩

structure Slot.WellFormed (s : Slot) : Prop where
  name : Text.isSlotName s.name.toList = true
  subslot : ∀ subslot ∈ s.subslot, Text.isSlotName subslot.toList = true

theorem Slot.isPartChar_of_mem_chars {s : Slot} (h : s.WellFormed) :
    ∀ c ∈ s.chars, isPartChar c = true ∨ c = '/' := by
  obtain ⟨name, subslot⟩ := s
  have hname : ∀ c ∈ name.toList, isPartChar c = true := Text.isPartChar_of_isSlotName h.name
  intro c hc
  rcases List.mem_append.mp hc with hc | hc
  · exact .inl (hname c hc)
  · cases subslot with
    | none => cases hc
    | some subslot =>
      rcases List.mem_cons.mp hc with rfl | hc
      · exact .inr rfl
      · exact .inl (Text.isPartChar_of_isSlotName (h.subslot subslot rfl) c hc)

theorem Slot.chars_eq_cons {s : Slot} (h : s.WellFormed) :
    ∃ c cs, s.chars = c :: cs ∧ Text.isNameStart c = true := by
  obtain ⟨c, cs, hcs, hc⟩ := Text.isNameWith_eq_cons h.name
  exact ⟨c, _, by rw [Slot.chars, hcs]; rfl, hc⟩

namespace Atom

/-- What holds of every atom that is read: each part is spelled as it may be, and the parts fit
together. -/
structure WellFormed (a : Atom) : Prop where
  key : a.key.WellFormed
  unbounded : a.bound = none → splitVersion a.key.chars = none
  slot : ∀ s ∈ a.slot, s.WellFormed
  star : a.slotOperator = some .star → a.slot = none
  repository : ∀ r ∈ a.repository, Text.isRepositoryName r.toList = true
  useRequirements : ∀ r ∈ a.useRequirements, '[' ∉ r.toList

-- ---------------------------------------------------------------------------
-- Blocker and operator
-- ---------------------------------------------------------------------------

theorem readBlocker_chars (blocker : Option Blocker) {rest : List Char}
    (h : StopsAt (· == '!') rest) :
    readBlocker (blocker.elim [] Blocker.chars ++ rest) = (blocker, rest) := by
  have hne : ∀ cs, rest ≠ '!' :: cs := by
    rintro cs rfl
    simp at h
  cases blocker with
  | none => rw [Option.elim_none, List.nil_append, readBlocker.eq_3] <;> simp [hne]
  | some b =>
    cases b with
    | weak =>
      show readBlocker ('!' :: rest) = _
      rw [readBlocker]
      simpa using hne
    | strong => rfl

def isOperatorChar (c : Char) : Bool :=
  ['<', '>', '=', '~'].contains c

def signOperator (bound : Option VersionBound) : Option Operator :=
  bound.map fun b => if b.operator = .equalGlob then .equal else b.operator

theorem readOperator_sign (bound : Option VersionBound) {rest : List Char}
    (h : StopsAt isOperatorChar rest) :
    readOperator (bound.elim [] (·.operator.sign) ++ rest) = (signOperator bound, rest) := by
  have hne : ∀ c cs, isOperatorChar c = true → rest ≠ c :: cs := by
    rintro c cs hc rfl
    simp [hc] at h
  have hlt := fun cs => hne '<' cs (by decide)
  have hgt := fun cs => hne '>' cs (by decide)
  have heq := fun cs => hne '=' cs (by decide)
  have htilde := fun cs => hne '~' cs (by decide)
  cases bound with
  | none =>
    rw [Option.elim_none, List.nil_append, readOperator] <;> simp [signOperator, *]
  | some b =>
    obtain ⟨operator, version⟩ := b
    cases operator <;> simp [Operator.sign, signOperator, readOperator]

-- ---------------------------------------------------------------------------
-- USE requirements and repository
-- ---------------------------------------------------------------------------

theorem readUse_of_not_mem {cs : List Char} (h : ']' ∉ cs) : readUse cs = .ok (none, cs) := by
  rw [readUse, if_neg fun hlast => h (List.mem_of_getLast? hlast)]

theorem readRepository_of_not_mem {cs : List Char} (h : ':' ∉ cs) :
    readRepository cs = .ok (none, cs) := by
  rw [readRepository, Text.cutFirst?_of_not_mem h]

theorem readUse_chars {use : Option String} {rest : List Char} (hrest : ']' ∉ rest)
    (huse : ∀ r ∈ use, '[' ∉ r.toList) :
    readUse (rest ++ use.elim [] (fun r => '[' :: r.toList ++ [']'])) = .ok (use, rest) := by
  cases use with
  | none => simp [readUse_of_not_mem hrest]
  | some r =>
    have hcut := Text.cutLast?_append_cons (huse r rfl) rest
    have htext : rest ++ ('[' :: r.toList ++ [']']) = (rest ++ '[' :: r.toList) ++ [']'] := by simp
    show readUse (rest ++ ('[' :: r.toList ++ [']'])) = _
    rw [htext, readUse, if_pos List.getLast?_concat, List.dropLast_concat, hcut]
    simp

theorem readRepository_chars {repository : Option String} {before slot : List Char}
    (hbefore : ':' ∉ before) (hslot : slot = [] ∨ ∃ c cs, slot = ':' :: c :: cs ∧ ':' ∉ c :: cs)
    (hrepository : ∀ r ∈ repository, Text.isRepositoryName r.toList = true) :
    readRepository (before ++ slot ++ repository.elim [] (fun r => ':' :: ':' :: r.toList)) =
      .ok (repository, before ++ slot) := by
  have hcut : Text.cutFirst? [':', ':']
      (before ++ slot ++ repository.elim [] (fun r => ':' :: ':' :: r.toList)) =
      repository.map fun r => (before ++ slot, r.toList) := by
    have hmark : Text.cutFirst? [':', ':'] (repository.elim [] (fun r => ':' :: ':' :: r.toList)) =
        repository.map fun r => ([], r.toList) := by
      cases repository with
      | none => rfl
      | some r => exact Text.cutFirst?_self ':' [':'] r.toList
    rw [List.append_assoc, Text.cutFirst?_append_of_not_mem hbefore]
    rcases hslot with rfl | ⟨c, cs, rfl, hcs⟩
    · rw [List.nil_append, hmark]
      cases repository <;> simp
    · -- the colon of the slot is followed by what is no colon
      have hc : c ≠ ':' := fun h => hcs (by simp [h])
      rw [List.cons_append, List.cons_append, Text.cutFirst?_single hc, ← List.cons_append,
        Text.cutFirst?_append_of_not_mem hcs, hmark]
      cases repository <;> simp
  rw [readRepository, hcut]
  cases repository with
  | none => simp
  | some r => simp [hrepository r rfl]

-- ---------------------------------------------------------------------------
-- Slot
-- ---------------------------------------------------------------------------

theorem readSlotName_chars {slot : Option Slot} (h : ∀ s ∈ slot, s.WellFormed) :
    readSlotName (slot.elim [] Slot.chars) = .ok slot := by
  cases slot with
  | none => rfl
  | some s =>
    obtain ⟨name, subslot⟩ := s
    have hs := h _ rfl
    have hname : Text.isSlotName name.toList = true := hs.name
    have hslash : '/' ∉ name.toList :=
      not_mem_of_isPartChar (Text.isPartChar_of_isSlotName hname) (by decide)
    have hne : (Slot.chars ⟨name, subslot⟩).isEmpty = false := by
      obtain ⟨c, cs, hcs, -⟩ := Slot.chars_eq_cons hs
      rw [hcs, List.isEmpty_cons]
    rw [readSlotName, Option.elim_some, hne, if_neg (by simp)]
    cases subslot with
    | none =>
      have hcut : Text.cutFirst? ['/'] name.toList = none := Text.cutFirst?_of_not_mem hslash
      simp [Slot.chars, hcut, hname]
    | some subslot =>
      have hsubslot : Text.isSlotName subslot.toList = true := hs.subslot subslot rfl
      have hcut := Text.cutFirst?_append_cons hslash subslot.toList
      simp [Slot.chars, hcut, hname, hsubslot]

theorem readSlotOperator_chars {slot : Option Slot} {operator : Option SlotOperator}
    (hslot : ∀ s ∈ slot, s.WellFormed) (hstar : operator = some .star → slot = none) :
    readSlotOperator (slot.elim [] Slot.chars ++ operator.elim [] SlotOperator.chars) =
      (operator, slot.elim [] Slot.chars) := by
  have hmem : ∀ mark, isPartChar mark = false → mark ≠ '/' → mark ∉ slot.elim [] Slot.chars := by
    intro mark hmark hslash hc
    obtain ⟨s, hs, hc⟩ := mem_elim hc
    exact Text.not_mem_of_isPartChar_or (Slot.isPartChar_of_mem_chars (hslot s hs)) hmark hslash hc
  have hstars : slot.elim [] Slot.chars ≠ ['*'] := fun h =>
    hmem '*' (by decide) (by decide) (by simp [h])
  have hequals : (slot.elim [] Slot.chars).getLast? ≠ some '=' := fun h =>
    hmem '=' (by decide) (by decide) (List.mem_of_getLast? h)
  rw [readSlotOperator.eq_def]
  cases operator with
  | none => simp [hstars, hequals]
  | some operator =>
    cases operator with
    | equal => simp [SlotOperator.chars, List.append_eq_cons_iff]
    | star =>
      rw [hstar rfl]
      rfl

theorem readSlot_of_not_mem {cs : List Char} (h : ':' ∉ cs) :
    readSlot cs = .ok ((none, none), cs) := by
  rw [readSlot, Text.cutFirst?_of_not_mem h]

theorem readSlot_chars {a : Atom} (h : a.WellFormed) {before : List Char} (hbefore : ':' ∉ before) :
    readSlot (before ++ a.slotChars) = .ok ((a.slot, a.slotOperator), before) := by
  rw [slotChars]
  split
  next hnone =>
    simp only [Bool.and_eq_true, Option.isNone_iff_eq_none] at hnone
    rw [List.append_nil, readSlot_of_not_mem hbefore, hnone.1, hnone.2]
  next =>
    rw [readSlot, Text.cutFirst?_append_cons hbefore]
    simp only [readSlotOperator_chars h.slot h.star, readSlotName_chars h.slot, Except.map]

/-- Behind the colon of the slot there is something, and no second colon. -/
theorem slotChars_cases {a : Atom} (h : a.WellFormed) :
    a.slotChars = [] ∨ ∃ c cs, a.slotChars = ':' :: c :: cs ∧ ':' ∉ c :: cs := by
  rw [slotChars]
  split
  · exact .inl rfl
  next hsome =>
    have hoperator : ':' ∉ a.slotOperator.elim [] SlotOperator.chars := by
      intro hc
      obtain ⟨operator, -, hc⟩ := mem_elim hc
      cases operator <;> simp [SlotOperator.chars] at hc
    cases hs : a.slot with
    | some s =>
      have hwf := h.slot s hs
      obtain ⟨c, cs, hcs, -⟩ := Slot.chars_eq_cons hwf
      have hcolon : ':' ∉ s.chars :=
        Text.not_mem_of_isPartChar_or (Slot.isPartChar_of_mem_chars hwf) (by decide) (by decide)
      refine .inr ⟨c, cs ++ a.slotOperator.elim [] SlotOperator.chars, by simp [hcs], ?_⟩
      rw [← List.cons_append, ← hcs, List.mem_append]
      exact fun hc => hc.elim hcolon hoperator
    | none =>
      cases ho : a.slotOperator with
      | none => simp [hs, ho] at hsome
      | some operator => cases operator <;> exact .inr ⟨_, [], rfl, by decide⟩

-- ---------------------------------------------------------------------------
-- Version and key
-- ---------------------------------------------------------------------------

section

variable {text : List Char} {v : Version}

/-- No version begins inside the name: the version behind it would be a revision. -/
theorem splitVersionFrom_append (hversion : Version.parse (String.ofList text) = .ok v)
    {name rest : List Char} (h : name ++ rest ≠ []) :
    splitVersionFrom name (rest ++ '-' :: text) = some (name ++ rest, v) := by
  induction rest generalizing name with
  | nil =>
    have hname : name.isEmpty = false := by simpa using h
    rw [List.nil_append, splitVersionFrom, hname, if_pos (by simp), hversion]
    simp
  | cons c rest ih =>
    have hrest : splitVersionFrom (name ++ [c]) (rest ++ '-' :: text) =
        some (name ++ [c] ++ rest, v) := ih (by simp)
    rw [List.append_assoc, List.singleton_append] at hrest
    rw [List.cons_append, splitVersionFrom]
    split
    next hhyphen =>
      cases hparse : Version.parse (String.ofList (rest ++ '-' :: text)) with
      | error e => exact hrest
      | ok w =>
        exact absurd hversion (Version.parse_behind_hyphen_ne hparse String.toList_ofList)
    next => exact hrest

theorem splitVersion_append (hversion : Version.parse (String.ofList text) = .ok v)
    {name : List Char} (h : name ≠ []) : splitVersion (name ++ '-' :: text) = some (name, v) := by
  have hsplit : splitVersionFrom [] (name ++ '-' :: text) = some ([] ++ name, v) :=
    splitVersionFrom_append hversion (by simpa using h)
  exact hsplit

end

def versionChars (a : Atom) : List Char :=
  a.bound.elim [] fun b => '-' :: b.version.chars

theorem readBound_chars {a : Atom} (h : a.WellFormed) :
    readBound (a.bound.map (·.operator)) (a.key.chars ++ a.versionChars) =
      .ok (a.bound, a.key.chars) := by
  cases hb : a.bound with
  | none => simp [readBound, versionChars, hb, h.unbounded hb]
  | some b =>
    obtain ⟨c, cs, hcs, -⟩ := PackageKey.chars_eq_cons h.key
    have hsplit : splitVersion (a.key.chars ++ '-' :: b.version.chars) =
        some (a.key.chars, b.version) := splitVersion_append b.version.parse_chars (by simp [hcs])
    simp [readBound, versionChars, hb, hsplit]

theorem readStar_of_not_mem (operator : Option Operator) {cs : List Char} (h : '*' ∉ cs) :
    readStar operator cs = (operator, cs) := by
  have hlast : cs.getLast? ≠ some '*' := fun hlast => h (List.mem_of_getLast? hlast)
  simp [readStar, hlast]

theorem readStar_chars (a : Atom) :
    readStar (signOperator a.bound) (a.key.chars ++ a.bound.elim [] VersionBound.chars) =
      (a.bound.map (·.operator), a.key.chars ++ a.versionChars) := by
  cases hb : a.bound with
  | none => simp [signOperator, readStar, versionChars, hb]
  | some b =>
    obtain ⟨operator, version⟩ := b
    have hlast : ('-' :: version.chars).getLast? ≠ some '*' := by
      intro hl
      rcases List.mem_cons.mp (List.mem_of_getLast? hl) with hmem | hmem
      · cases hmem
      · exact not_mem_of_isPartChar version.isPartChar_of_mem_chars (by decide) hmem
    cases operator with
    | equalGlob =>
      have htext : a.key.chars ++ ('-' :: version.chars ++ ['*']) =
          (a.key.chars ++ '-' :: version.chars) ++ ['*'] := by simp
      show readStar (some .equal) (a.key.chars ++ ('-' :: version.chars ++ ['*'])) = _
      rw [htext, readStar, List.getLast?_concat, if_pos (by simp), List.dropLast_concat]
      simp [versionChars, hb]
    | _ => simp [signOperator, readStar, VersionBound.chars, versionChars, hb, hlast]

theorem readKey_chars {key : PackageKey} (h : key.WellFormed) : readKey key.chars = .ok key := by
  rw [readKey, PackageKey.parse_chars h]

end Atom

end PackageAlgebra
