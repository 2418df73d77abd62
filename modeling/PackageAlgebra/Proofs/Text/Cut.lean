import PackageAlgebra.Text

/-!
# Texts put together and taken apart

A text that was joined at a mark is cut there again if the mark stands nowhere
before, or nowhere behind, the place where it was joined. Words hold no blank
and are not empty, so words that are joined by blanks come apart again.
-/

namespace PackageAlgebra.Text

-- ---------------------------------------------------------------------------
-- Where a text is cut
-- ---------------------------------------------------------------------------

@[simp] theorem isPrefixOf?_append (mark rest : List Char) :
    mark.isPrefixOf? (mark ++ rest) = some rest := by
  induction mark with
  | nil => rfl
  | cons m mark ih => rw [List.cons_append, cons_isPrefixOf?_cons, if_pos (beq_self_eq_true m), ih]

theorem cutFirst?_self (m : Char) (marks rest : List Char) :
    cutFirst? (m :: marks) (m :: marks ++ rest) = some ([], rest) := by
  have hprefix := isPrefixOf?_append (m :: marks) rest
  rw [List.cons_append] at hprefix ⊢
  rw [cutFirst?, hprefix]

theorem cutFirst?_append_of_not_mem {m : Char} {marks before : List Char} (h : m ∉ before)
    (cs : List Char) :
    cutFirst? (m :: marks) (before ++ cs) =
      (cutFirst? (m :: marks) cs).map fun (front, rest) => (before ++ front, rest) := by
  induction before with
  | nil => simp
  | cons c before ih =>
    simp only [List.mem_cons, not_or] at h
    have hprefix : (m :: marks).isPrefixOf? (c :: (before ++ cs)) = none := by
      simp [h.1]
    rw [List.cons_append, cutFirst?, hprefix, ih h.2, Option.map_map]
    rfl

theorem cutFirst?_of_not_mem {m : Char} {marks cs : List Char} (h : m ∉ cs) :
    cutFirst? (m :: marks) cs = none := by
  have hcut : cutFirst? (m :: marks) (cs ++ []) = none := cutFirst?_append_of_not_mem h []
  rwa [List.append_nil] at hcut

theorem cutFirst?_append_cons {m : Char} {before : List Char} (h : m ∉ before) (rest : List Char) :
    cutFirst? [m] (before ++ m :: rest) = some (before, rest) := by
  have hself := cutFirst?_self m [] rest
  rw [List.cons_append, List.nil_append] at hself
  rw [cutFirst?_append_of_not_mem h, hself]
  simp

theorem cutFirst?_eq_some_iff {m : Char} {cs before rest : List Char} :
    cutFirst? [m] cs = some (before, rest) ↔ cs = before ++ m :: rest ∧ m ∉ before := by
  constructor
  · intro h
    have hmem : m ∈ cs := by
      rw [join_of_cutFirst? h]
      simp
    obtain ⟨before', rest', hcs, hnot⟩ := List.eq_append_cons_of_mem hmem
    rw [hcs, cutFirst?_append_cons hnot] at h
    cases h
    exact ⟨hcs, hnot⟩
  · rintro ⟨rfl, hnot⟩
    exact cutFirst?_append_cons hnot rest

theorem cutFirst?_eq_none_iff {m : Char} {cs : List Char} : cutFirst? [m] cs = none ↔ m ∉ cs := by
  refine ⟨fun h hmem => ?_, cutFirst?_of_not_mem⟩
  obtain ⟨before, rest, rfl, hnot⟩ := List.eq_append_cons_of_mem hmem
  rw [cutFirst?_append_cons hnot] at h
  cases h

theorem cutFirst?_append_right {m : Char} {behind : List Char} (h : m ∉ behind) (cs : List Char) :
    cutFirst? [m] (cs ++ behind) =
      (cutFirst? [m] cs).map fun (front, rest) => (front, rest ++ behind) := by
  induction cs with
  | nil => exact cutFirst?_of_not_mem h
  | cons c cs ih =>
    rw [List.cons_append, cutFirst?, cutFirst?, ih, cons_isPrefixOf?_cons, cons_isPrefixOf?_cons,
      nil_isPrefixOf?, nil_isPrefixOf?]
    by_cases hc : (m == c) = true
    · rw [if_pos hc, if_pos hc]
      rfl
    · rw [if_neg hc, if_neg hc, Option.map_map, Option.map_map]
      rfl

theorem cutFirst?_single {m c : Char} (h : c ≠ m) (cs : List Char) :
    cutFirst? [m, m] (m :: c :: cs) =
      (cutFirst? [m, m] (c :: cs)).map fun (front, rest) => (m :: front, rest) := by
  have hprefix : [m, m].isPrefixOf? (m :: c :: cs) = none := by
    simp [Ne.symm h]
  rw [cutFirst?, hprefix]

theorem getLast?_of_cutFirst? {m : Char} {cs before rest : List Char}
    (h : cutFirst? [m, m] cs = some (before, rest)) : before.getLast? ≠ some m := by
  induction cs generalizing before with
  | nil => cases h
  | cons c cs ih =>
    rw [cutFirst?] at h
    split at h
    next =>
      cases h
      simp
    next hprefix =>
      obtain ⟨⟨front, back⟩, hcut, heq⟩ := Option.map_eq_some_iff.mp h
      cases heq
      cases front with
      | nil =>
        have hne : c ≠ m := by
          rintro rfl
          rw [join_of_cutFirst? hcut] at hprefix
          simp at hprefix
        simpa using hne
      | cons d front =>
        rw [List.getLast?_cons_cons]
        exact ih hcut

theorem cutLast?_of_not_mem {m : Char} {cs : List Char} (h : m ∉ cs) : cutLast? m cs = none := by
  induction cs with
  | nil => rfl
  | cons c cs ih =>
    simp only [List.mem_cons, not_or] at h
    rw [cutLast?, ih h.2]
    simp [Ne.symm h.1]

theorem cutLast?_append_cons {m : Char} {rest : List Char} (h : m ∉ rest) (before : List Char) :
    cutLast? m (before ++ m :: rest) = some (before, rest) := by
  induction before with
  | nil =>
    rw [List.nil_append, cutLast?, cutLast?_of_not_mem h]
    simp
  | cons c before ih => rw [List.cons_append, cutLast?, ih]

-- ---------------------------------------------------------------------------
-- Where a reader stops
-- ---------------------------------------------------------------------------

section

variable {α β : Type}

/-- The text does not go on with a character of the class. -/
def StopsAt (p : α → Bool) (xs : List α) : Prop :=
  ∀ x ∈ xs.head?, p x = false

@[simp] theorem stopsAt_nil (p : α → Bool) : StopsAt p [] := by
  simp [StopsAt]

@[simp] theorem stopsAt_cons {p : α → Bool} {x : α} {xs : List α} :
    StopsAt p (x :: xs) ↔ p x = false := by
  simp [StopsAt]

theorem StopsAt.append {p : α → Bool} {xs ys : List α} (hxs : StopsAt p xs) (hys : StopsAt p ys) :
    StopsAt p (xs ++ ys) := by
  cases xs with
  | nil => exact hys
  | cons x xs => exact hxs

theorem takeWhile_append_of_stopsAt {p : α → Bool} {xs ys : List α} (hxs : ∀ x ∈ xs, p x = true)
    (hys : StopsAt p ys) : (xs ++ ys).takeWhile p = xs := by
  rw [List.takeWhile_append_of_pos hxs]
  cases ys with
  | nil => simp
  | cons y ys => simp [stopsAt_cons.mp hys]

theorem dropWhile_append_of_stopsAt {p : α → Bool} {xs ys : List α} (hxs : ∀ x ∈ xs, p x = true)
    (hys : StopsAt p ys) : (xs ++ ys).dropWhile p = ys := by
  rw [List.dropWhile_append_of_pos hxs]
  cases ys with
  | nil => simp
  | cons y ys => simp [stopsAt_cons.mp hys]

theorem splitOn_flatMap_cons {mark : Char} {x : List Char} {xs : List (List Char)} (hx : mark ∉ x)
    (hxs : ∀ y ∈ xs, mark ∉ y) : (x ++ xs.flatMap (mark :: ·)).splitOn mark = x :: xs := by
  induction xs generalizing x with
  | nil => simpa using List.splitOn_eq_singleton hx
  | cons y ys ih =>
    rw [List.flatMap_cons, List.cons_append, List.splitOn_append_cons_self_of_not_mem hx,
      ih (hxs y (by simp)) fun z hz => hxs z (by simp [hz])]

theorem intercalate_cons (mark : Char) (x : List Char) (xs : List (List Char)) :
    [mark].intercalate (x :: xs) = x ++ xs.flatMap (mark :: ·) := by
  induction xs generalizing x with
  | nil => simp
  | cons y ys ih => simp [List.intercalate_cons_cons, ih]

theorem join_of_splitOn {mark : Char} {cs x : List Char} {xs : List (List Char)}
    (h : cs.splitOn mark = x :: xs) : cs = x ++ xs.flatMap (mark :: ·) := by
  rw [← intercalate_cons, ← h, List.intercalate_splitOn]

theorem mapM_map_eq_map {γ : Type} {read : β → Option γ} {write : α → β} {f : α → γ} {xs : List α}
    (h : ∀ x ∈ xs, read (write x) = some (f x)) : (xs.map write).mapM read = some (xs.map f) := by
  induction xs with
  | nil => rfl
  | cons x xs ih =>
    rw [List.map_cons, List.mapM_cons, h x (by simp), ih fun y hy => h y (by simp [hy])]
    rfl

theorem mapM_map_eq_some {read : β → Option α} {write : α → β} {xs : List α}
    (h : ∀ x ∈ xs, read (write x) = some x) : (xs.map write).mapM read = some xs :=
  (mapM_map_eq_map h).trans (congrArg some (List.map_id xs))

theorem map_of_mapM {read : β → Option α} {write : α → β} {xs : List α} {ys : List β}
    (hread : ∀ y x, read y = some x → write x = y) (h : ys.mapM read = some xs) :
    xs.map write = ys := by
  induction ys generalizing xs with
  | nil =>
    cases h
    rfl
  | cons y ys ih =>
    simp only [List.mapM_cons, Option.bind_eq_bind, Option.bind_eq_some_iff] at h
    obtain ⟨x, hx, xs, hxs, heq⟩ := h
    cases heq
    rw [List.map_cons, hread y x hx, ih hxs]

end

-- ---------------------------------------------------------------------------
-- Words and blanks
-- ---------------------------------------------------------------------------

/-- Not empty, and without a blank. -/
structure IsWord (cs : List Char) : Prop where
  ne_nil : cs ≠ []
  noBlank : ∀ c ∈ cs, isBlank c = false

instance (cs : List Char) : Decidable (IsWord cs) :=
  decidable_of_iff (cs ≠ [] ∧ cs.all (fun c => !isBlank c) = true)
    ⟨fun h => ⟨h.1, by simpa using h.2⟩, fun h => ⟨h.ne_nil, by simpa using h.noBlank⟩⟩

theorem isWord_of_mem_wordsFrom {word cs w : List Char} (hword : ∀ c ∈ word, isBlank c = false)
    (hw : w ∈ wordsFrom word cs) : IsWord w := by
  induction cs generalizing word with
  | nil =>
    rw [wordsFrom] at hw
    split at hw
    · simp at hw
    next hne =>
      obtain rfl := List.mem_singleton.mp hw
      exact ⟨by simpa using hne, hword⟩
  | cons c cs ih =>
    rw [wordsFrom] at hw
    split at hw
    next hblank =>
      split at hw
      · exact ih (by simp) hw
      next hne =>
        rcases List.mem_cons.mp hw with rfl | hw
        · exact ⟨by simpa using hne, hword⟩
        · exact ih (by simp) hw
    next hblank =>
      refine ih ?_ hw
      intro d hd
      rcases List.mem_append.mp hd with hd | hd
      · exact hword d hd
      · obtain rfl := List.mem_singleton.mp hd
        simpa using hblank

theorem wordsFrom_append {w : List Char} (hw : ∀ c ∈ w, isBlank c = false) (word cs : List Char) :
    wordsFrom word (w ++ cs) = wordsFrom (word ++ w) cs := by
  induction w generalizing word with
  | nil => simp
  | cons c w ih =>
    have hc : isBlank c = false := hw c (by simp)
    rw [List.cons_append, wordsFrom, hc, if_neg (by simp), ih (fun d hd => hw d (by simp [hd])),
      List.append_assoc, List.singleton_append]

theorem words_intercalate {ws : List (List Char)} (h : ∀ w ∈ ws, IsWord w) :
    words ([' '].intercalate ws) = ws := by
  induction ws with
  | nil => rfl
  | cons w ws ih =>
    have hw := h w (by simp)
    have hempty : w.isEmpty = false := by simpa using hw.ne_nil
    have hblank : isBlank ' ' = true := by decide
    cases ws with
    | nil =>
      rw [List.intercalate_singleton, words, ← List.append_nil w, wordsFrom_append hw.noBlank]
      simp [wordsFrom, hw.ne_nil]
    | cons v ws =>
      have ih := ih (fun u hu => h u (by simp [hu]))
      rw [List.intercalate_cons_cons, words, List.append_assoc, wordsFrom_append hw.noBlank,
        List.singleton_append, List.nil_append, wordsFrom, if_pos hblank, hempty]
      exact congrArg (w :: ·) ih

theorem isWord_of_mem_wordsOf {s word : String} (h : word ∈ wordsOf s) : IsWord word.toList := by
  obtain ⟨w, hw, rfl⟩ := List.mem_map.mp h
  rw [String.toList_ofList]
  exact isWord_of_mem_wordsFrom (by simp) hw

theorem wordsOf_intercalate {ws : List String} (h : ∀ w ∈ ws, IsWord w.toList) :
    wordsOf (" ".intercalate ws) = ws := by
  have hlists : ∀ w ∈ ws.map String.toList, IsWord w := by simpa using h
  rw [wordsOf, String.toList_intercalate]
  show (words ([' '].intercalate _)).map String.ofList = ws
  rw [words_intercalate hlists, List.map_map]
  simp [Function.comp_def]

end PackageAlgebra.Text
