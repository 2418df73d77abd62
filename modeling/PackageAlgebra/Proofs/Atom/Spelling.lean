import PackageAlgebra.Proofs.Atom.RoundTrip

/-!
# How an atom was spelled

The reader inverted stage by stage: what each stage takes off a text, put back
on, gives the text. Only a revision, which may have leading zeros, and a colon
with no slot behind it leave their spelling open. In no text two hyphens have
versions behind them, so the first that has one is the right one.
-/

namespace PackageAlgebra

open Text (StopsAt isPartChar)

def VersionBound.spelled (b : VersionBound) (version : List Char) : List Char :=
  '-' :: version ++ if b.operator = .equalGlob then ['*'] else []

namespace Atom

def frontChars (a : Atom) : List Char :=
  a.blocker.elim [] Blocker.chars ++ (a.bound.elim [] (·.operator.sign) ++ a.key.chars)

def spelled (a : Atom) (version slot : List Char) : List Char :=
  a.frontChars ++ (a.bound.elim [] (·.spelled version) ++
    (slot ++ (a.repository.elim [] (fun r => ':' :: ':' :: r.toList) ++ a.useChars)))

theorem spelled_chars (a : Atom) :
    a.spelled (a.bound.elim [] (·.version.chars)) a.slotChars = a.chars := by
  cases hb : a.bound <;>
    simp [spelled, frontChars, chars, useChars, VersionBound.spelled, VersionBound.chars, hb]

theorem readOperator_ne_equalGlob (cs : List Char) : (readOperator cs).1 ≠ some .equalGlob := by
  fun_cases readOperator cs <;> simp

-- ---------------------------------------------------------------------------
-- USE requirements and repository
-- ---------------------------------------------------------------------------

theorem join_of_readUse {cs rest : List Char} {use : Option String}
    (h : readUse cs = .ok (use, rest)) :
    rest ++ use.elim [] (fun r => '[' :: r.toList ++ [']']) = cs := by
  rw [readUse] at h
  split at h
  next hlast =>
    split at h
    next before requirements hcut =>
      cases h
      obtain ⟨hjoin, -⟩ := Text.join_of_cutLast? hcut
      obtain ⟨body, rfl⟩ := List.getLast?_eq_some_iff.mp hlast
      rw [List.dropLast_concat] at hjoin
      simp [hjoin]
    · cases h
  · cases h
    simp

theorem join_of_readRepository {cs rest : List Char} {repository : Option String}
    (h : readRepository cs = .ok (repository, rest)) :
    rest ++ repository.elim [] (fun r => ':' :: ':' :: r.toList) = cs := by
  rw [readRepository] at h
  split at h
  next before name hcut =>
    split at h
    · cases h
      simp [Text.join_of_cutFirst? hcut]
    · cases h
  · cases h
    simp

theorem repository_of_getLast? {cs rest : List Char} {repository : Option String}
    (h : readRepository cs = .ok (repository, rest)) (hlast : rest.getLast? = some ':') :
    repository = none := by
  rw [readRepository] at h
  split at h
  next before name hcut =>
    split at h
    · cases h
      exact absurd hlast (Text.getLast?_of_cutFirst? hcut)
    · cases h
  · cases h
    rfl

-- ---------------------------------------------------------------------------
-- Slot
-- ---------------------------------------------------------------------------

theorem join_readSlotOperator (cs : List Char) :
    (readSlotOperator cs).2 ++ (readSlotOperator cs).1.elim [] SlotOperator.chars = cs := by
  rw [readSlotOperator]
  split
  next hstar => exact hstar.symm
  next =>
    split
    next hlast =>
      obtain ⟨name, rfl⟩ := List.getLast?_eq_some_iff.mp hlast
      simp [SlotOperator.chars]
    next => simp

theorem chars_of_readSlotName {cs : List Char} {slot : Option Slot}
    (h : readSlotName cs = .ok slot) : slot.elim [] Slot.chars = cs := by
  rw [readSlotName] at h
  split at h
  next hempty =>
    cases h
    exact (List.isEmpty_iff.mp hempty).symm
  next =>
    split at h
    next name subslot hcut =>
      split at h
      · cases h
        simp [Slot.chars, Text.join_of_cutFirst? hcut]
      · cases h
    next =>
      split at h
      · cases h
        simp [Slot.chars]
      · cases h

theorem join_of_readSlot {a : Atom} {cs rest : List Char}
    (h : readSlot cs = .ok ((a.slot, a.slotOperator), rest)) :
    rest ++ a.slotChars = cs ∨ a.slot = none ∧ a.slotOperator = none ∧ rest ++ [':'] = cs := by
  rw [readSlot] at h
  split at h
  next before behind hcut =>
    simp only at h
    cases hname : readSlotName (readSlotOperator behind).2 with
    | error e =>
      rw [hname] at h
      cases h
    | ok slot =>
      simp only [hname, Except.map, Except.ok.injEq, Prod.mk.injEq] at h
      obtain ⟨⟨hslot, hoperator⟩, rfl⟩ := h
      have hbehind : a.slot.elim [] Slot.chars ++ a.slotOperator.elim [] SlotOperator.chars =
          behind := by
        rw [← hslot, ← hoperator, chars_of_readSlotName hname, join_readSlotOperator]
      rw [Text.join_of_cutFirst? hcut, ← hbehind, slotChars]
      split
      next hnone =>
        simp only [Bool.and_eq_true, Option.isNone_iff_eq_none] at hnone
        exact .inr ⟨hnone.1, hnone.2, by simp [hnone]⟩
      next => exact .inl (by simp)
  next =>
    simp only [Except.ok.injEq, Prod.mk.injEq] at h
    obtain ⟨⟨hslot, hoperator⟩, rfl⟩ := h
    exact .inl (by simp [slotChars, ← hslot, ← hoperator])

-- ---------------------------------------------------------------------------
-- Version and key
-- ---------------------------------------------------------------------------

theorem join_readStar {operator : Option Operator} (h : operator ≠ some .equalGlob)
    (cs : List Char) :
    (readStar operator cs).2 ++ (if (readStar operator cs).1 = some .equalGlob then ['*'] else []) =
      cs ∧ (readStar operator cs).1.elim [] Operator.sign = operator.elim [] Operator.sign := by
  fun_cases readStar operator cs with
  | case1 hstar =>
    simp only [Bool.and_eq_true, decide_eq_true_eq] at hstar
    obtain ⟨rfl, hlast⟩ := hstar
    obtain ⟨front, rfl⟩ := List.getLast?_eq_some_iff.mp hlast
    simp [Operator.sign]
  | case2 => simp [h]

theorem join_of_splitVersionFrom {name cs front : List Char} {v : Version}
    (h : splitVersionFrom name cs = some (front, v)) :
    ∃ version, front ++ '-' :: version = name ++ cs ∧
      Version.parse (String.ofList version) = .ok v := by
  induction cs generalizing name with
  | nil => cases h
  | cons c cs ih =>
    rw [splitVersionFrom] at h
    split at h
    next hhyphen =>
      split at h
      next hparse =>
        cases h
        simp only [Bool.and_eq_true, decide_eq_true_eq] at hhyphen
        exact ⟨cs, by rw [hhyphen.1], hparse⟩
      next => simpa using ih h
    next => simpa using ih h

theorem join_of_readBound {operator : Option Operator} {cs name : List Char}
    {bound : Option VersionBound} (h : readBound operator cs = .ok (bound, name)) :
    bound.map (·.operator) = operator ∧
      ∃ version, name ++ bound.elim [] (fun _ => '-' :: version) = cs ∧
        ∀ b ∈ bound, Version.parse (String.ofList version) = .ok b.version := by
  rw [readBound.eq_def] at h
  split at h
  next hsplit =>
    cases h
    obtain ⟨version, hjoin, hparse⟩ := join_of_splitVersionFrom hsplit
    exact ⟨rfl, version, hjoin, by simpa using hparse⟩
  · cases h
  · cases h
  · cases h
    exact ⟨rfl, [], by simp, by simp⟩

/-- A text that is an atom is the atom's, but for how its version and its slot are spelled. -/
theorem spelled_of_read {text : List Char} {a : Atom} (h : read text = .ok a) :
    ∃ version slot, a.spelled version slot = Text.trim text ∧
      (∀ b ∈ a.bound, Version.parse (String.ofList version) = .ok b.version) ∧
      (slot = a.slotChars ∨
        a.slot = none ∧ a.slotOperator = none ∧ a.repository = none ∧ slot = [':']) := by
  obtain ⟨operator, behindBlocker, behindOperator, beforeUse, beforeRepository, beforeSlot, name,
    hblocker, hoperator, huse, hrepository, hslot, hbound, hkey⟩ := stages_of_read h
  have hfront := join_readBlocker (Text.trim text)
  have hbehind := join_readOperator behindBlocker
  have hglob := readOperator_ne_equalGlob behindBlocker
  rw [hblocker] at hfront
  rw [hoperator] at hbehind hglob
  obtain ⟨hstar, hsign⟩ := join_readStar hglob beforeSlot
  obtain ⟨hbounded, version, hversion, hparse⟩ := join_of_readBound hbound
  obtain ⟨-, hname⟩ := readKey_ok hkey
  have htext : ∀ slotText, beforeSlot ++ slotText = beforeRepository →
      a.spelled version slotText = Text.trim text := by
    intro slotText hslotText
    -- each part goes back to where it was cut off
    rw [← hfront, ← hbehind, ← join_of_readUse huse, ← join_of_readRepository hrepository,
      ← hslotText, ← hstar, ← hversion, ← hname, ← hsign, ← hbounded]
    cases hb : a.bound <;> simp [spelled, frontChars, VersionBound.spelled, useChars, hb]
  refine ⟨version, ?_⟩
  rcases join_of_readSlot hslot with hjoin | ⟨hnone, hnone', hjoin⟩
  · exact ⟨a.slotChars, htext _ hjoin, hparse, .inl rfl⟩
  · have hlast : beforeRepository.getLast? = some ':' := by simp [← hjoin]
    have hrepository := repository_of_getLast? hrepository hlast
    exact ⟨[':'], htext _ hjoin, hparse, .inr ⟨hnone, hnone', hrepository, rfl⟩⟩

/-- How the version of the atom is spelled in a text of it: what stands between the hyphen behind
the key and the next mark. -/
def versionPart (a : Atom) (text : List Char) : List Char :=
  (text.drop (a.frontChars.length + 1)).takeWhile isPartChar

theorem stopsAt_slotChars (a : Atom) : StopsAt isPartChar a.slotChars := by
  rw [slotChars]
  split
  · exact Text.stopsAt_nil _
  · exact Text.stopsAt_cons.mpr (by decide)

theorem versionPart_spelled {a : Atom} {b : VersionBound} {version slot : List Char}
    (hb : a.bound = some b) (hversion : ∀ c ∈ version, isPartChar c = true)
    (hslot : StopsAt isPartChar slot) : a.versionPart (a.spelled version slot) = version := by
  have hbehind : StopsAt isPartChar ((if b.operator = .equalGlob then ['*'] else []) ++
      (slot ++ (a.repository.elim [] (fun r => ':' :: ':' :: r.toList) ++ a.useChars))) := by
    refine StopsAt.append ?_ (hslot.append (StopsAt.append ?_ ?_))
    · split
      · exact Text.stopsAt_cons.mpr (by decide)
      · exact Text.stopsAt_nil _
    · cases a.repository with
      | none => exact Text.stopsAt_nil _
      | some r => exact Text.stopsAt_cons.mpr (by decide)
    · rw [useChars]
      cases a.useRequirements with
      | none => exact Text.stopsAt_nil _
      | some r => exact Text.stopsAt_cons.mpr (by decide)
  have hdrop : (a.spelled version slot).drop (a.frontChars.length + 1) =
      version ++ ((if b.operator = .equalGlob then ['*'] else []) ++
        (slot ++ (a.repository.elim [] (fun r => ':' :: ':' :: r.toList) ++ a.useChars))) := by
    rw [spelled, ← List.drop_drop, List.drop_left, hb]
    simp [VersionBound.spelled]
  rw [versionPart, hdrop, Text.takeWhile_append_of_stopsAt hversion hbehind]

-- ---------------------------------------------------------------------------
-- Printing what was read
-- ---------------------------------------------------------------------------

/-- The text is the printed atom but for a colon that has no slot behind it. -/
structure BareColon (a : Atom) (text : List Char) : Prop where
  slot : a.slot = none
  slotOperator : a.slotOperator = none
  repository : a.repository = none
  text : text = a.spelled (a.bound.elim [] (·.version.chars)) [':']

theorem BareColon.toString_ne {a : Atom} {text : List Char} (h : a.BareColon text) :
    toString a ≠ String.ofList text := by
  intro heq
  have hchars : a.chars = text := String.ofList_injective heq
  have hnone : a.slotChars = [] := by simp [slotChars, h.slot, h.slotOperator]
  rw [h.text, ← spelled_chars, hnone] at hchars
  simp [spelled] at hchars

/-- An atom whose revision, if it has one, is spelled plainly prints as it was written, without
the blanks around it. A colon with no slot behind it is the only thing that is lost. -/
theorem toString_of_parse {text : String} {a : Atom} (h : parse text = .ok a)
    (hplain : ∀ b ∈ a.bound, Version.HasPlainRevision (a.versionPart (Text.trim text.toList))) :
    (∀ b ∈ a.bound, Version.parse (String.ofList (a.versionPart (Text.trim text.toList))) =
      .ok b.version) ∧
    (toString a = String.ofList (Text.trim text.toList) ↔
      ¬ a.BareColon (Text.trim text.toList)) := by
  obtain ⟨version, slot, htext, hparse, hslot⟩ := spelled_of_read (read_of_parse h)
  have hstops : StopsAt isPartChar slot := by
    rcases hslot with rfl | ⟨-, -, -, rfl⟩
    · exact a.stopsAt_slotChars
    · exact Text.stopsAt_cons.mpr (by decide)
  have hpart : ∀ b ∈ a.bound, a.versionPart (Text.trim text.toList) = version := by
    intro b hb
    have hchars := Version.isPartChar_of_parse (hparse b hb)
    rw [String.toList_ofList] at hchars
    rw [← htext, versionPart_spelled hb hchars hstops]
  have hprinted : a.spelled (a.bound.elim [] (·.version.chars)) slot = Text.trim text.toList := by
    rw [← htext]
    cases hb : a.bound with
    | none => simp [spelled, hb]
    | some b =>
      have hversion := Version.chars_of_parse (hparse b hb) (by
        rw [String.toList_ofList, ← hpart b hb]
        exact hplain b hb)
      rw [Option.elim_some, hversion, String.toList_ofList]
  refine ⟨fun b hb => by rw [hpart b hb]; exact hparse b hb, fun heq hbare => ?_, fun hbare => ?_⟩
  · exact hbare.toString_ne heq
  rcases hslot with rfl | ⟨hnone, hnone', hrepository, rfl⟩
  · rw [spelled_chars] at hprinted
    exact congrArg String.ofList hprinted
  · exact absurd ⟨hnone, hnone', hrepository, hprinted.symm⟩ hbare

theorem toString_of_parse_full :
    ∃ a, parse " !!>=a-b/c-d-1.0a_rc1-r10:2/2.1=::gentoo[x y] " = .ok a ∧
      (∀ b ∈ a.bound, Version.HasPlainRevision (a.versionPart
        (Text.trim " !!>=a-b/c-d-1.0a_rc1-r10:2/2.1=::gentoo[x y] ".toList))) ∧
      toString a = "!!>=a-b/c-d-1.0a_rc1-r10:2/2.1=::gentoo[x y]" ∧
      ¬ a.BareColon (Text.trim " !!>=a-b/c-d-1.0a_rc1-r10:2/2.1=::gentoo[x y] ".toList) := by
  obtain ⟨a, hparse, htext, hpart⟩ :
      ∃ a, parse " !!>=a-b/c-d-1.0a_rc1-r10:2/2.1=::gentoo[x y] " = .ok a ∧
        toString a = "!!>=a-b/c-d-1.0a_rc1-r10:2/2.1=::gentoo[x y]" ∧
        a.versionPart (Text.trim " !!>=a-b/c-d-1.0a_rc1-r10:2/2.1=::gentoo[x y] ".toList) =
          "1.0a_rc1-r10".toList := ⟨_, rfl, rfl, rfl⟩
  have hplain : Version.HasPlainRevision "1.0a_rc1-r10".toList := .inr ⟨10, by decide, rfl⟩
  rw [← hpart] at hplain
  exact ⟨a, hparse, fun _ _ => hplain, htext,
    (toString_of_parse hparse fun _ _ => hplain).2.mp htext⟩

/-- The bare colon is read and not printed. -/
theorem parse_bareColon :
    ∃ a, parse "a/b:" = .ok a ∧ a.bound = none ∧ toString a = "a/b" ∧
      toString a ≠ String.ofList (Text.trim "a/b:".toList) :=
  ⟨_, rfl, rfl, rfl, by decide⟩

end Atom

end PackageAlgebra

namespace PackageAlgebra.Atom

-- ---------------------------------------------------------------------------
-- The hyphen in front of a version
-- ---------------------------------------------------------------------------

variable {v w : Version}

theorem eq_nil_of_parse_behind {cs text rest : List Char}
    (hjoin : '-' :: text = cs ++ '-' :: rest) (hv : Version.parse (String.ofList text) = .ok v)
    (hw : Version.parse (String.ofList rest) = .ok w) : cs = [] := by
  cases cs with
  | nil => rfl
  | cons c cs =>
    have htext : text = cs ++ '-' :: rest := (List.cons.inj hjoin).2
    exact absurd hw (Version.parse_behind_hyphen_ne hv (String.toList_ofList.trans htext))

/-- Behind one hyphen at most stands a version. -/
theorem hyphen_unique {name front text rest : List Char}
    (hjoin : name ++ '-' :: text = front ++ '-' :: rest)
    (hv : Version.parse (String.ofList text) = .ok v)
    (hw : Version.parse (String.ofList rest) = .ok w) : front = name ∧ w = v := by
  rcases List.append_eq_append_iff.mp hjoin with ⟨cs, hfront, hcs⟩ | ⟨cs, hname, hcs⟩
  · obtain rfl := eq_nil_of_parse_behind hcs hv hw
    cases hcs
    exact ⟨by simpa using hfront, Except.ok.inj (hw.symm.trans hv)⟩
  · obtain rfl := eq_nil_of_parse_behind hcs hw hv
    cases hcs
    exact ⟨by simpa using hname.symm, Except.ok.inj (hw.symm.trans hv)⟩

/-- A version is split off from any name in front of it, printed or spelled otherwise. There is no
other hyphen with a version behind it. -/
theorem splitVersion_hyphen {name text : String} (hname : name ≠ "")
    (hparse : Version.parse text = .ok v) :
    splitVersion (name ++ "-" ++ toString v).toList = some (name.toList, v) ∧
      splitVersion (name ++ "-" ++ text).toList = some (name.toList, v) ∧
      ∀ front rest w, name ++ "-" ++ toString v = front ++ "-" ++ rest →
        Version.parse rest = .ok w → front = name ∧ w = v := by
  have hjoin : ∀ front rest : String,
      (front ++ "-" ++ rest).toList = front.toList ++ '-' :: rest.toList := by
    simp [String.toList_append]
  have hne : name.toList ≠ [] := by simpa using hname
  have hprinted : Version.parse (toString v) = .ok v := v.parse_chars
  rw [hjoin, hjoin]
  refine ⟨splitVersion_append ?_ hne, splitVersion_append ?_ hne, ?_⟩
  · rwa [String.ofList_toList]
  · rwa [String.ofList_toList]
  intro front rest w heq hw
  have hchars := congrArg String.toList heq
  rw [hjoin, hjoin] at hchars
  rw [← String.ofList_toList (s := rest)] at hw
  rw [← String.ofList_toList (s := toString v)] at hprinted
  obtain ⟨hfront, hversion⟩ := hyphen_unique hchars hprinted hw
  exact ⟨String.toList_inj.mp hfront, hversion⟩

/-- The name ends in a version with a revision, and the version behind it has one with zeros in
front. -/
theorem splitVersion_hyphen_versions :
    ∃ v, "gtk+-2_p-r1" ≠ "" ∧ Version.parse "3-r007" = .ok v ∧
      splitVersion "gtk+-2_p-r1-3-r7".toList = some ("gtk+-2_p-r1".toList, v) ∧
      splitVersion "gtk+-2_p-r1-3-r007".toList = some ("gtk+-2_p-r1".toList, v) ∧
      ∀ front rest w, "gtk+-2_p-r1-3-r7" = front ++ "-" ++ rest → Version.parse rest = .ok w →
        front = "gtk+-2_p-r1" ∧ w = v := by
  obtain ⟨v, hparse, hprint⟩ : ∃ v, Version.parse "3-r007" = .ok v ∧ toString v = "3-r7" :=
    ⟨_, rfl, rfl⟩
  have hname : "gtk+-2_p-r1" ≠ "" := by decide
  have hsplit := splitVersion_hyphen hname hparse
  rw [hprint] at hsplit
  exact ⟨v, hname, hparse, hsplit⟩

end PackageAlgebra.Atom
