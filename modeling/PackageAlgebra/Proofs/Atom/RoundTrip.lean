import PackageAlgebra.Proofs.Atom.Parts
import PackageAlgebra.Proofs.Except
import PackageAlgebra.Text

/-!
# Atoms and their texts

`read_ok`: every atom that is read is well-formed. `read_chars`: every
well-formed atom is read back from its printed text.
-/

namespace PackageAlgebra.Atom

open Text (StopsAt isPartChar)

-- ---------------------------------------------------------------------------
-- What is read is well-formed
-- ---------------------------------------------------------------------------

theorem join_readBlocker (cs : List Char) :
    (readBlocker cs).1.elim [] Blocker.chars ++ (readBlocker cs).2 = cs := by
  fun_cases readBlocker cs <;> rfl

theorem join_readOperator (cs : List Char) :
    (readOperator cs).1.elim [] Operator.sign ++ (readOperator cs).2 = cs := by
  fun_cases readOperator cs <;> rfl

theorem suffix_readBlocker (cs : List Char) : (readBlocker cs).2 <:+ cs :=
  ⟨_, join_readBlocker cs⟩

theorem suffix_readOperator (cs : List Char) : (readOperator cs).2 <:+ cs :=
  ⟨_, join_readOperator cs⟩

theorem mem_of_mem_trim {c : Char} {cs : List Char} (h : c ∈ Text.trim cs) : c ∈ cs := by
  rw [Text.trim, Text.trimEnd, List.mem_reverse] at h
  have h := (List.dropWhile_suffix _).subset h
  rw [List.mem_reverse] at h
  exact (List.dropWhile_suffix _).subset h

theorem readUse_ok {cs rest : List Char} {use : Option String} (h : readUse cs = .ok (use, rest)) :
    ∀ r ∈ use, '[' ∉ r.toList ∧ ∀ c ∈ r.toList, c ∈ cs := by
  rw [readUse] at h
  split at h
  · split at h
    next before requirements hcut =>
      cases h
      obtain ⟨hjoin, hmem⟩ := Text.join_of_cutLast? hcut
      intro r hr
      cases hr
      rw [String.toList_ofList]
      refine ⟨hmem, fun c hc => (List.dropLast_subset cs) ?_⟩
      simp [hjoin, hc]
    · cases h
  · cases h
    simp

theorem readRepository_ok {cs rest : List Char} {repository : Option String}
    (h : readRepository cs = .ok (repository, rest)) :
    ∀ r ∈ repository, Text.isRepositoryName r.toList = true := by
  rw [readRepository] at h
  split at h
  · split at h
    next hname =>
      cases h
      simpa using hname
    · cases h
  · cases h
    simp

theorem readSlotName_ok {cs : List Char} {slot : Option Slot} (h : readSlotName cs = .ok slot) :
    ∀ s ∈ slot, s.WellFormed := by
  rw [readSlotName] at h
  split at h
  · cases h
    simp
  · split at h
    · split at h
      next hnames =>
        cases h
        rw [Bool.and_eq_true] at hnames
        intro s hs
        cases hs
        exact ⟨by simpa using hnames.1, by simpa using hnames.2⟩
      · cases h
    · split at h
      next hname =>
        cases h
        intro s hs
        cases hs
        exact ⟨by simpa using hname, by simp⟩
      · cases h

theorem readSlotOperator_star {cs : List Char} (h : (readSlotOperator cs).1 = some .star) :
    (readSlotOperator cs).2 = [] := by
  rw [readSlotOperator] at h ⊢
  split
  · rfl
  next hstar =>
    rw [if_neg hstar] at h
    split at h
    · cases h
    · cases h

theorem readSlot_ok {cs rest : List Char} {slot : Option Slot} {operator : Option SlotOperator}
    (h : readSlot cs = .ok ((slot, operator), rest)) :
    (∀ s ∈ slot, s.WellFormed) ∧ (operator = some .star → slot = none) := by
  rw [readSlot] at h
  split at h
  next before behind hcut =>
    simp only at h
    cases hname : readSlotName (readSlotOperator behind).2 with
    | error e =>
      rw [hname] at h
      cases h
    | ok read =>
      rw [hname] at h
      cases h
      refine ⟨readSlotName_ok hname, fun hstar => ?_⟩
      rw [readSlotOperator_star hstar] at hname
      cases hname
      rfl
  next =>
    cases h
    simp

theorem readBound_ok {operator : Option Operator} {cs name : List Char}
    {bound : Option VersionBound} (h : readBound operator cs = .ok (bound, name)) :
    bound = none → splitVersion name = none := by
  rintro rfl
  rw [readBound.eq_def] at h
  split at h
  · cases h
  · cases h
  · cases h
  next hsplit =>
    cases h
    exact hsplit

theorem readKey_ok {cs : List Char} {key : PackageKey} (h : readKey cs = .ok key) :
    key.WellFormed ∧ key.chars = cs := by
  rw [readKey] at h
  split at h
  next hparse =>
    cases h
    exact ⟨PackageKey.wellFormed_of_parse hparse, by
      rw [PackageKey.chars_of_parse hparse, String.toList_ofList]⟩
  · cases h

/-- What each stage of reading an atom takes, and what it leaves for the next. -/
theorem stages_of_read {text : List Char} {a : Atom} (h : read text = .ok a) :
    ∃ operator behindBlocker behindOperator beforeUse beforeRepository beforeSlot name,
      readBlocker (Text.trim text) = (a.blocker, behindBlocker) ∧
      readOperator behindBlocker = (operator, behindOperator) ∧
      readUse behindOperator = .ok (a.useRequirements, beforeUse) ∧
      readRepository beforeUse = .ok (a.repository, beforeRepository) ∧
      readSlot beforeRepository = .ok ((a.slot, a.slotOperator), beforeSlot) ∧
      readBound (readStar operator beforeSlot).1 (readStar operator beforeSlot).2 =
        .ok (a.bound, name) ∧
      readKey name = .ok a.key := by
  simp only [read] at h
  split at h
  · cases h
  simp only [bind_ok, pure, Except.pure] at h
  obtain ⟨⟨use, beforeUse⟩, huse, ⟨repository, beforeRepository⟩, hrepository,
    ⟨⟨slot, slotOperator⟩, beforeSlot⟩, hslot, ⟨bound, name⟩, hbound, key, hkey, ha⟩ := h
  cases ha
  exact ⟨_, _, _, beforeUse, beforeRepository, beforeSlot, name, rfl, rfl, huse, hrepository, hslot,
    hbound, hkey⟩

theorem read_ok {text : List Char} {a : Atom} (h : read text = .ok a) :
    a.WellFormed ∧ ∀ r ∈ a.useRequirements, ∀ c ∈ r.toList, c ∈ text := by
  obtain ⟨operator, behindBlocker, behindOperator, beforeUse, beforeRepository, beforeSlot, name,
    hblocker, hoperator, huse, hrepository, hslot, hbound, hkey⟩ := stages_of_read h
  obtain ⟨hwellFormed, hname⟩ := readKey_ok hkey
  obtain ⟨hslots, hstar⟩ := readSlot_ok hslot
  have huse := readUse_ok huse
  refine ⟨⟨hwellFormed, ?_, hslots, hstar, readRepository_ok hrepository,
    fun r hr => (huse r hr).1⟩, fun r hr c hc => ?_⟩
  · intro hnone
    rw [hname]
    exact readBound_ok hbound hnone
  · have hfront := suffix_readBlocker (Text.trim text)
    have hbehind := suffix_readOperator behindBlocker
    rw [hblocker] at hfront
    rw [hoperator] at hbehind
    exact mem_of_mem_trim (hfront.subset (hbehind.subset ((huse r hr).2 c hc)))

-- ---------------------------------------------------------------------------
-- The characters of a printed atom
-- ---------------------------------------------------------------------------

def isAtomChar (c : Char) : Bool :=
  isPartChar c || ['!', '<', '>', '=', '~', '/', ':', '*'].contains c

theorem isAtomChar_of_isPartChar {c : Char} (h : isPartChar c = true) : isAtomChar c = true := by
  simp [isAtomChar, h]

theorem isBlank_of_isAtomChar {c : Char} (h : isAtomChar c = true) : Text.isBlank c = false := by
  simp only [isAtomChar, Bool.or_eq_true, List.contains_iff_mem] at h
  rcases h with h | h
  · exact Text.isBlank_of_isPartChar h
  · simp only [List.mem_cons, List.not_mem_nil, or_false] at h
    rcases h with rfl | rfl | rfl | rfl | rfl | rfl | rfl | rfl <;> rfl

def bodyChars (a : Atom) : List Char :=
  a.key.chars ++ a.bound.elim [] VersionBound.chars ++ a.slotChars ++
    a.repository.elim [] (fun r => ':' :: ':' :: r.toList)

def useChars (a : Atom) : List Char :=
  a.useRequirements.elim [] (fun r => '[' :: r.toList ++ [']'])

theorem chars_eq_parts (a : Atom) :
    a.chars = a.blocker.elim [] Blocker.chars ++
      (a.bound.elim [] (·.operator.sign) ++ (a.bodyChars ++ a.useChars)) := by
  simp [chars, bodyChars, useChars]

theorem isAtomChar_of_mem_front (blocker : Option Blocker) (bound : Option VersionBound) :
    ∀ c ∈ blocker.elim [] Blocker.chars ++ bound.elim [] (·.operator.sign),
      isAtomChar c = true := by
  intro c hc
  rcases List.mem_append.mp hc with hc | hc
  · obtain ⟨b, -, hc⟩ := mem_elim hc
    have hblocker : b.chars.all isAtomChar = true := by cases b <;> decide
    exact List.all_eq_true.mp hblocker c hc
  · obtain ⟨b, -, hc⟩ := mem_elim hc
    have hsign : b.operator.sign.all isAtomChar = true := by cases b.operator <;> decide
    exact List.all_eq_true.mp hsign c hc

theorem isAtomChar_of_part_or {c mark : Char} (h : isPartChar c = true ∨ c = mark)
    (hmark : isAtomChar mark = true) : isAtomChar c = true := by
  rcases h with h | rfl
  · exact isAtomChar_of_isPartChar h
  · exact hmark

theorem isPartChar_of_mem_bound (b : VersionBound) :
    ∀ c ∈ b.chars, isPartChar c = true ∨ c = '*' := by
  intro c hc
  rw [VersionBound.chars, List.cons_append, List.mem_cons, List.mem_append] at hc
  rcases hc with rfl | hc | hc
  · exact .inl (by decide)
  · exact .inl (b.version.isPartChar_of_mem_chars c hc)
  · split at hc
    · exact .inr (List.mem_singleton.mp hc)
    · cases hc

theorem isAtomChar_of_mem_slotChars {a : Atom} (h : a.WellFormed) :
    ∀ c ∈ a.slotChars, isAtomChar c = true := by
  intro c hc
  rw [slotChars] at hc
  split at hc
  · cases hc
  rw [List.mem_cons, List.mem_append] at hc
  rcases hc with rfl | hc | hc
  · decide
  · obtain ⟨s, hs, hc⟩ := mem_elim hc
    exact isAtomChar_of_part_or (Slot.isPartChar_of_mem_chars (h.slot s hs) c hc) (by decide)
  · obtain ⟨operator, -, hc⟩ := mem_elim hc
    have hoperator : operator.chars.all isAtomChar = true := by cases operator <;> decide
    exact List.all_eq_true.mp hoperator c hc

theorem isAtomChar_of_mem_bodyChars {a : Atom} (h : a.WellFormed) :
    ∀ c ∈ a.bodyChars, isAtomChar c = true := by
  intro c hc
  simp only [bodyChars, List.mem_append] at hc
  rcases hc with ((hc | hc) | hc) | hc
  · exact isAtomChar_of_part_or (PackageKey.isPartChar_of_mem_chars h.key c hc) (by decide)
  · obtain ⟨b, -, hc⟩ := mem_elim hc
    exact isAtomChar_of_part_or (isPartChar_of_mem_bound b c hc) (by decide)
  · exact isAtomChar_of_mem_slotChars h c hc
  · obtain ⟨r, hr, hc⟩ := mem_elim hc
    rw [List.mem_cons, List.mem_cons] at hc
    rcases hc with rfl | rfl | hc
    · decide
    · decide
    · exact isAtomChar_of_isPartChar (Text.isPartChar_of_isRepositoryName (h.repository r hr) c hc)

theorem bodyChars_eq_cons {a : Atom} (h : a.WellFormed) :
    ∃ c cs, a.bodyChars = c :: cs ∧ Text.isNameStart c = true := by
  obtain ⟨c, cs, hcs, hc⟩ := PackageKey.chars_eq_cons h.key
  exact ⟨c, _, by rw [bodyChars, hcs]; rfl, hc⟩

theorem colon_not_mem_key_bound {a : Atom} (h : a.WellFormed) :
    ':' ∉ a.key.chars ++ a.bound.elim [] VersionBound.chars := by
  intro hc
  rcases List.mem_append.mp hc with hc | hc
  · exact PackageKey.not_mem_chars h.key (by decide) (by decide) hc
  · obtain ⟨b, -, hc⟩ := mem_elim hc
    rcases isPartChar_of_mem_bound b ':' hc with hc | hc
    · exact absurd hc (by decide)
    · cases hc

theorem chars_eq_cons {a : Atom} (h : a.WellFormed) :
    ∃ c cs, a.chars = c :: cs ∧ isAtomChar c = true := by
  obtain ⟨c, cs, hcs, -⟩ := bodyChars_eq_cons h
  have hfront := isAtomChar_of_mem_front a.blocker a.bound
  rw [chars_eq_parts, ← List.append_assoc, ← List.append_assoc]
  cases hf : a.blocker.elim [] Blocker.chars ++ a.bound.elim [] (·.operator.sign) with
  | nil =>
    rw [List.nil_append, hcs]
    exact ⟨c, _, rfl, isAtomChar_of_mem_bodyChars h c (by simp [hcs])⟩
  | cons d ds => exact ⟨d, _, rfl, hfront d (by simp [hf])⟩

theorem getLast?_chars {a : Atom} (h : a.WellFormed) :
    ∀ c ∈ a.chars.getLast?, c = ']' ∨ isAtomChar c = true := by
  intro c hc
  cases hu : a.useRequirements with
  | some r =>
    rw [chars_eq_parts, useChars, hu, Option.elim_some] at hc
    simp only [← List.append_assoc, List.getLast?_concat, Option.mem_def, Option.some.injEq] at hc
    exact .inl hc.symm
  | none =>
    rw [chars_eq_parts, useChars, hu, Option.elim_none, List.append_nil, ← List.append_assoc] at hc
    rcases List.mem_append.mp (List.mem_of_getLast? hc) with hc | hc
    · exact .inr (isAtomChar_of_mem_front a.blocker a.bound c hc)
    · exact .inr (isAtomChar_of_mem_bodyChars h c hc)

-- ---------------------------------------------------------------------------
-- What is well-formed is read back
-- ---------------------------------------------------------------------------

theorem trim_chars {a : Atom} (h : a.WellFormed) : Text.trim a.chars = a.chars := by
  apply Text.trim_of_ends
  · obtain ⟨c, cs, hcs, hc⟩ := chars_eq_cons h
    simpa [hcs] using isBlank_of_isAtomChar hc
  · intro c hc
    rcases getLast?_chars h c hc with rfl | hc
    · decide
    · exact isBlank_of_isAtomChar hc

theorem stopsAt_bodyChars {a : Atom} (h : a.WellFormed) {p : Char → Bool}
    (hp : ∀ c, Text.isNameStart c = true → p c = false) (rest : List Char) :
    StopsAt p (a.bodyChars ++ rest) := by
  obtain ⟨c, cs, hcs, hc⟩ := bodyChars_eq_cons h
  simpa [hcs] using hp c hc

theorem beq_bang_of_isNameStart {c : Char} (h : Text.isNameStart c = true) :
    (c == '!') = false := by
  rw [beq_eq_false_iff_ne]
  rintro rfl
  exact absurd h (by decide)

theorem stopsAt_sign (bound : Option VersionBound) {rest : List Char}
    (h : StopsAt (· == '!') rest) :
    StopsAt (· == '!') (bound.elim [] (·.operator.sign) ++ rest) := by
  cases bound with
  | none => exact h
  | some b => cases hb : b.operator <;> simp [hb, Operator.sign]

theorem isOperatorChar_of_isNameStart {c : Char} (h : Text.isNameStart c = true) :
    isOperatorChar c = false := by
  rw [Bool.eq_false_iff]
  intro hmem
  simp only [isOperatorChar, List.contains_iff_mem, List.mem_cons, List.not_mem_nil,
    or_false] at hmem
  rcases hmem with rfl | rfl | rfl | rfl <;> cases h

theorem read_chars {a : Atom} (h : a.WellFormed) : read a.chars = .ok a := by
  have hempty : a.chars.isEmpty = false := by
    obtain ⟨c, cs, hcs, -⟩ := chars_eq_cons h
    rw [hcs, List.isEmpty_cons]
  have hbracket : ']' ∉ a.bodyChars := fun hc =>
    absurd (isAtomChar_of_mem_bodyChars h ']' hc) (by decide)
  have hcolon := colon_not_mem_key_bound h
  have hblocker := readBlocker_chars a.blocker
    (stopsAt_sign a.bound (stopsAt_bodyChars h (fun c => beq_bang_of_isNameStart) a.useChars))
  have hoperator := readOperator_sign a.bound
    (stopsAt_bodyChars h (fun c => isOperatorChar_of_isNameStart) a.useChars)
  have huse : readUse (a.bodyChars ++ a.useChars) = .ok (a.useRequirements, a.bodyChars) :=
    readUse_chars hbracket h.useRequirements
  have hrepository : readRepository a.bodyChars = .ok (a.repository, _) :=
    readRepository_chars hcolon (slotChars_cases h) h.repository
  have hslot := readSlot_chars h hcolon
  have hstar := readStar_chars a
  have hbound := readBound_chars h
  have hkey := readKey_chars h.key
  rw [← chars_eq_parts] at hblocker
  simp only [read, trim_chars h, hempty, hblocker, hoperator, huse, hrepository, hslot, hstar,
    hbound, hkey, bind, Except.bind]
  rfl

theorem trim_unmarked (blocker : Option Blocker) (bound : Option VersionBound) {body : List Char}
    (hbody : ∀ c ∈ body, isPartChar c = true ∨ c = '/') :
    Text.trim (blocker.elim [] Blocker.chars ++ (bound.elim [] (·.operator.sign) ++ body)) =
      blocker.elim [] Blocker.chars ++ (bound.elim [] (·.operator.sign) ++ body) := by
  have hblank : ∀ c ∈ blocker.elim [] Blocker.chars ++ (bound.elim [] (·.operator.sign) ++ body),
      Text.isBlank c = false := by
    intro c hc
    rw [← List.append_assoc, List.mem_append] at hc
    rcases hc with hc | hc
    · exact isBlank_of_isAtomChar (isAtomChar_of_mem_front blocker bound c hc)
    · exact isBlank_of_isAtomChar (isAtomChar_of_part_or (hbody c hc) (by decide))
  apply Text.trim_of_ends
  · intro c hc
    exact hblank c (List.mem_of_head? hc)
  · intro c hc
    exact hblank c (List.mem_of_getLast? hc)

/-- Behind blocker and sign, a text with none of the marks of slot, repository and USE
requirements comes whole to the search for a version. -/
theorem read_unmarked (blocker : Option Blocker) (bound : Option VersionBound) {body : List Char}
    (hstart : ∃ c cs, body = c :: cs ∧ Text.isNameStart c = true)
    (hbody : ∀ c ∈ body, isPartChar c = true ∨ c = '/') :
    read (blocker.elim [] Blocker.chars ++ (bound.elim [] (·.operator.sign) ++ body)) = do
      let (bound, rest) ← readBound (signOperator bound) body
      let key ← readKey rest
      return { ofKey key with blocker, bound } := by
  have htrim := trim_unmarked blocker bound hbody
  obtain ⟨c, cs, rfl, hc⟩ := hstart
  have hempty : (blocker.elim [] Blocker.chars ++
      (bound.elim [] (·.operator.sign) ++ c :: cs)).isEmpty = false := by simp
  have hbang : StopsAt (· == '!') (c :: cs) := Text.stopsAt_cons.mpr (beq_bang_of_isNameStart hc)
  have hsign : StopsAt isOperatorChar (c :: cs) :=
    Text.stopsAt_cons.mpr (isOperatorChar_of_isNameStart hc)
  have hblocker := readBlocker_chars blocker (stopsAt_sign bound hbang)
  have hoperator := readOperator_sign bound hsign
  have hbracket : ']' ∉ c :: cs := Text.not_mem_of_isPartChar_or hbody (by decide) (by decide)
  have hcolon : ':' ∉ c :: cs := Text.not_mem_of_isPartChar_or hbody (by decide) (by decide)
  have hstars : '*' ∉ c :: cs := Text.not_mem_of_isPartChar_or hbody (by decide) (by decide)
  simp only [read, htrim, hempty, hblocker, hoperator, readUse_of_not_mem hbracket,
    readRepository_of_not_mem hcolon, readSlot_of_not_mem hcolon,
    readStar_of_not_mem (signOperator bound) hstars, bind, Except.bind]
  rfl

theorem read_of_parse {text : String} {a : Atom} (h : parse text = .ok a) :
    read text.toList = .ok a := by
  rw [parse] at h
  split at h
  next hread =>
    cases h
    exact hread
  · cases h

theorem parse_of_wellFormed {a : Atom} (h : a.WellFormed) : parse (toString a) = .ok a := by
  show parse (String.ofList a.chars) = _
  rw [parse, String.toList_ofList, read_chars h]

end PackageAlgebra.Atom
