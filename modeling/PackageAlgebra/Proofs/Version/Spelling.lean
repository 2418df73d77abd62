import PackageAlgebra.Proofs.Version.RoundTrip

/-!
# How a version was spelled

The reader inverted from the text's side: a text that is a version is its base
as printed and behind it a revision, with a hyphen in front of that and nowhere
else. Where the revision is spelled as the printer does, the text is the printed
version.
-/

namespace PackageAlgebra

-- ---------------------------------------------------------------------------
-- The text of each part
-- ---------------------------------------------------------------------------

theorem Numeral.chars_of_read? {cs : List Char} {a : Numeral} (h : read? cs = some a) :
    a.chars = cs := by
  rw [read?] at h
  split at h
  · cases h
    rfl
  · cases h

theorem Letter.char_of_ofChar? {c : Char} {l : Letter} (h : ofChar? c = some l) : l.char = c := by
  rw [ofChar?] at h
  split at h
  · cases h
    rfl
  · cases h

namespace Suffix

theorem chars_of_readNumber? {cs : List Char} {number : Option Numeral}
    (h : readNumber? cs = some number) : number.elim [] Numeral.chars = cs := by
  rw [readNumber?] at h
  split at h
  next hempty =>
    cases h
    exact (List.isEmpty_iff.mp hempty).symm
  · obtain ⟨a, ha, rfl⟩ := Option.map_eq_some_iff.mp h
    exact Numeral.chars_of_read? ha

theorem name_digits_of_read? {cs : List Char} {s : Suffix} (h : read? cs = some s) :
    s.kind.name ++ s.digits = cs := by
  obtain ⟨kind, -, hkind⟩ := List.exists_of_findSome?_eq_some h
  obtain ⟨digits, hname, hnumber⟩ := Option.bind_eq_some_iff.mp hkind
  obtain ⟨number, hread, rfl⟩ := Option.map_eq_some_iff.mp hnumber
  rw [Text.eq_append_of_isPrefixOf? hname, ← chars_of_readNumber? hread]
  rfl

theorem chars_of_readAll? {cs : List Char} {suffixes : List Suffix}
    (h : readAll? cs = some suffixes) : suffixes.flatMap chars = cs := by
  rw [readAll?.eq_def] at h
  split at h
  next pieces hsplit =>
    have hpieces : (suffixes.map fun s => s.kind.name ++ s.digits) = pieces :=
      Text.map_of_mapM (fun _ _ => name_digits_of_read?) h
    rw [Text.join_of_splitOn hsplit, List.nil_append, ← hpieces, List.flatMap_map]
    rfl
  · cases h

end Suffix

namespace Version

open Text (StopsAt)

theorem Parts.join_ofChars (cs : List Char) :
    (ofChars cs).numbers ++ ((ofChars cs).letter.toList.map Letter.char ++
      ((ofChars cs).suffixes ++ (ofChars cs).revision)) = cs := by
  simp only [ofChars, List.takeWhile_append_dropWhile]
  cases hl : (cs.dropWhile inNumbers).head?.bind Letter.ofChar? with
  | none => simp [List.takeWhile_append_dropWhile]
  | some l =>
    obtain ⟨c, hc, hl⟩ := Option.bind_eq_some_iff.mp hl
    have hbehind : l.char :: (cs.dropWhile inNumbers).tail = cs.dropWhile inNumbers := by
      obtain ⟨rest, hrest⟩ := List.head?_eq_some_iff.mp hc
      rw [hrest, Letter.char_of_ofChar? hl, List.tail_cons]
    simp [hbehind, List.takeWhile_append_dropWhile]

theorem readRevision_ok {text : String} {cs : List Char} {n : UInt64}
    (h : readRevision text cs = .ok n) :
    cs = [] ∧ n = 0 ∨
      ∃ ds, cs = '-' :: 'r' :: ds ∧ isNumeral ds = true ∧ Text.number? ds = some n.toNat := by
  rw [readRevision.eq_def] at h
  split at h
  · cases h
    exact .inl ⟨rfl, rfl⟩
  next ds =>
    split at h
    next hds =>
      split at h
      next value hvalue =>
        split at h
        next hlt =>
          cases h
          exact .inr ⟨ds, rfl, hds, by rw [hvalue, UInt64.toNat_ofNat_of_lt' hlt]⟩
        · cases h
      · cases h
    · cases h
  · cases h

theorem revision_ofChars (cs : List Char) :
    (Parts.ofChars cs).revision = cs.dropWhile (· != '-') := by
  have hnumbers : ∀ c ∈ cs.takeWhile inNumbers, (c != '-') = true := by
    intro c hc
    have hc : inNumbers c = true := List.all_eq_true.mp List.all_takeWhile c hc
    simp only [bne_iff_ne, ne_eq]
    rintro rfl
    exact absurd hc (by decide)
  have hcs : cs.dropWhile (· != '-') = (cs.dropWhile inNumbers).dropWhile (· != '-') := by
    conv => lhs; rw [← List.takeWhile_append_dropWhile (p := inNumbers) (l := cs)]
    exact List.dropWhile_append_of_pos hnumbers
  rw [hcs]
  show List.dropWhile (· != '-') (if _ then _ else _) = _
  split
  next hletter =>
    cases hb : cs.dropWhile inNumbers with
    | nil => rfl
    | cons c behind =>
      have hne : (c != '-') = true := by
        simp only [bne_iff_ne, ne_eq]
        rintro rfl
        rw [hb, List.head?_cons] at hletter
        have hnone : Letter.ofChar? '-' = none := by decide
        simp [hnone] at hletter
      rw [List.tail_cons, List.dropWhile_cons, if_pos hne]
  · rfl

/-- What the reader takes for the parts in front of a hyphen is what the printer writes for them. A
text that does not begin with such parts is malformed. -/
theorem parse_cases (text : String) :
    parse text = .error (.malformed text) ∨
      ∃ v : Version, text.toList = v.baseChars ++ text.toList.dropWhile (· != '-') := by
  rw [parse]
  split
  next major minors hmajor =>
    have hnumbers : major.chars ++ minors.flatMap ('.' :: ·.chars) =
        (Parts.ofChars text.toList).numbers := by
      have hpieces := Text.map_of_mapM (fun _ _ => Numeral.chars_of_read?) hmajor
      rw [List.map_cons] at hpieces
      rw [Text.join_of_splitOn hpieces.symm, List.flatMap_map]
    split
    next suffixes hsuffix =>
      have hsuffixes : suffixes.flatMap Suffix.chars = (Parts.ofChars text.toList).suffixes := by
        split at hsuffix
        next hempty =>
          cases hsuffix
          exact (List.isEmpty_iff.mp hempty).symm
        · exact Suffix.chars_of_readAll? hsuffix
      refine .inr ⟨⟨major, minors, (Parts.ofChars text.toList).letter, suffixes, 0⟩, ?_⟩
      have hjoin := Parts.join_ofChars text.toList
      rw [revision_ofChars, ← hnumbers, ← hsuffixes] at hjoin
      rw [append_eq_parts]
      exact hjoin.symm
    · exact .inl rfl
  · exact .inl rfl

theorem stopsAt_dropWhile_hyphen (cs : List Char) :
    StopsAt (· != '-') (cs.dropWhile (· != '-')) := by
  intro c hc
  have hhead := List.head?_dropWhile_not (· != '-') cs
  rwa [Option.mem_def.mp hc] at hhead

theorem base_append_of_parse {text : String} {v : Version} (h : parse text = .ok v) :
    v.baseChars ++ text.toList.dropWhile (· != '-') = text.toList ∧
      readRevision text (text.toList.dropWhile (· != '-')) = .ok v.revision := by
  rcases parse_cases text with herror | ⟨w, htext⟩
  · rw [herror] at h
    cases h
  rw [parse_append w (stopsAt_dropWhile_hyphen _) htext] at h
  cases hrevision : readRevision text (text.toList.dropWhile (· != '-')) with
  | error e =>
    rw [hrevision] at h
    cases h
  | ok revision =>
    rw [hrevision] at h
    cases h
    exact ⟨htext.symm, rfl⟩

theorem exists_isDecimal_of_parse {text : String} {v : Version} (h : parse text = .ok v) :
    ∃ c cs, text.toList = c :: cs ∧ Text.isDecimal c = true := by
  obtain ⟨hbase, -⟩ := base_append_of_parse h
  obtain ⟨c, cs, hcs, hc⟩ := v.major.chars_eq_cons
  rw [baseChars, hcs] at hbase
  exact ⟨c, _, hbase.symm, hc⟩

theorem revision_of_readRevision {text : String} {cs : List Char} {n : UInt64}
    (h : readRevision text cs = .ok n) : cs = [] ∨ ∃ ds, cs = '-' :: 'r' :: ds ∧ '-' ∉ ds := by
  rcases readRevision_ok h with ⟨hnil, -⟩ | ⟨ds, hds, hnumeral, -⟩
  · exact .inl hnil
  · refine .inr ⟨ds, hds, fun hmem => ?_⟩
    rw [isNumeral, Bool.and_eq_true] at hnumeral
    exact absurd (List.all_eq_true.mp hnumeral.2 _ hmem) (by decide)

theorem eq_cons_of_parse {text : String} {v : Version} {before behind : List Char}
    (h : parse text = .ok v) (htext : text.toList = before ++ '-' :: behind) :
    ∃ ds, behind = 'r' :: ds := by
  obtain ⟨-, hn⟩ := base_append_of_parse h
  rw [htext] at hn
  cases hb : before.dropWhile (· != '-') with
  | nil =>
    rw [List.dropWhile_append, hb] at hn
    rcases revision_of_readRevision hn with hnil | ⟨ds, hds, -⟩
    · simp at hnil
    · exact ⟨ds, by simpa using hds⟩
  | cons c cs =>
    -- a second hyphen would stand among the digits of the revision
    rw [List.dropWhile_append, hb] at hn
    rcases revision_of_readRevision hn with hnil | ⟨ds, hds, hmem⟩
    · simp at hnil
    · simp only [List.isEmpty_cons, Bool.false_eq_true, ↓reduceIte, List.cons_append,
        List.cons.injEq] at hds
      obtain ⟨rfl, hds⟩ := hds
      cases cs with
      | nil => simp at hds
      | cons d cs =>
        simp only [List.cons_append, List.cons.injEq] at hds
        exact absurd (by simp [← hds.2]) hmem

/-- No version stands behind a hyphen of a version: a revision begins with a letter. -/
theorem parse_behind_hyphen_ne {text : String} {v w : Version} {before behind : List Char}
    (h : parse text = .ok v) (htext : text.toList = before ++ '-' :: behind) :
    parse (String.ofList behind) ≠ .ok w := by
  intro hw
  obtain ⟨ds, hds⟩ := eq_cons_of_parse h htext
  obtain ⟨c, cs, hcs, hc⟩ := exists_isDecimal_of_parse hw
  rw [String.toList_ofList, hds, List.cons.injEq] at hcs
  exact absurd (hcs.1 ▸ hc) (by decide)

-- ---------------------------------------------------------------------------
-- Plain revisions
-- ---------------------------------------------------------------------------

/-- The version has no revision, or a positive one that is spelled without leading zeros. -/
def HasPlainRevision (version : List Char) : Prop :=
  version.dropWhile (· != '-') = [] ∨
    ∃ n, 0 < n ∧ version.dropWhile (· != '-') = '-' :: 'r' :: Text.digits n

theorem revisionChars_of_hasPlainRevision {text : String} {version : List Char} {v : Version}
    (h : readRevision text (version.dropWhile (· != '-')) = .ok v.revision)
    (hplain : HasPlainRevision version) : v.revisionChars = version.dropWhile (· != '-') := by
  rcases readRevision_ok h with ⟨hnil, hzero⟩ | ⟨ds, hds, -, hvalue⟩
  · rw [revisionChars, if_pos hzero, hnil]
  rcases hplain with hnil | ⟨n, hpos, hn⟩
  · rw [hnil] at hds
    cases hds
  -- the digits of the revision are those of one number only
  rw [hn] at hds
  cases hds
  rw [Text.number?_digits, Option.some.injEq] at hvalue
  have hne : v.revision ≠ 0 := by
    intro hzero
    rw [hzero] at hvalue
    exact absurd hvalue (Nat.ne_of_gt hpos)
  rw [revisionChars, if_neg hne, hn, hvalue]

/-- A version prints as it was spelled if its revision was spelled plainly. -/
theorem chars_of_parse {text : String} {v : Version} (h : parse text = .ok v)
    (hplain : HasPlainRevision text.toList) : v.chars = text.toList := by
  obtain ⟨hbase, hrevision⟩ := base_append_of_parse h
  rw [chars, revisionChars_of_hasPlainRevision hrevision hplain, hbase]

theorem isPartChar_of_parse {text : String} {v : Version} (h : parse text = .ok v) :
    ∀ c ∈ text.toList, Text.isPartChar c = true := by
  obtain ⟨hbase, hrevision⟩ := base_append_of_parse h
  intro c hc
  rw [← hbase] at hc
  rcases List.mem_append.mp hc with hc | hc
  · exact v.isPartChar_of_mem_chars c (List.mem_append_left _ hc)
  rcases readRevision_ok hrevision with ⟨hnil, -⟩ | ⟨ds, hds, hnumeral, -⟩
  · rw [hnil] at hc
    cases hc
  rw [hds, List.mem_cons, List.mem_cons] at hc
  rw [isNumeral, Bool.and_eq_true] at hnumeral
  rcases hc with rfl | rfl | hc
  · decide
  · decide
  · exact isPartChar_of_isDecimal (List.all_eq_true.mp hnumeral.2 c hc)

end Version

end PackageAlgebra
