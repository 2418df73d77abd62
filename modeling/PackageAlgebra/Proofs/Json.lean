import Mathlib.Data.List.DropRight
import PackageAlgebra.Json.Reader
import PackageAlgebra.Json.Writer
import PackageAlgebra.Proofs.Text.Cut

/-!
# JSON documents are read back

A literal is read back from its escaped spelling, and a value from its document.
The compact and the indented form differ in blanks alone, so what is said of
items and members leaves open how each of them is spelled.
-/

namespace PackageAlgebra

theorem Text.fromUTF8?_toUTF8 (s : String) : String.fromUTF8? s.toUTF8 = some s := by
  rw [String.fromUTF8?, String.toUTF8_eq_toByteArray, dif_pos s.isValidUTF8]
  rfl

theorem Text.symbols_toUTF8 (s : String) : Text.symbols s.toUTF8 = Text.symbolsOf s := by
  rw [Text.symbols, fromUTF8?_toUTF8]

namespace Json

-- ---------------------------------------------------------------------------
-- Literals
-- ---------------------------------------------------------------------------

def Spelled.of (read : List Char) : Spelled :=
  ⟨some read, none⟩

theorem codeUnit?_control :
    ∀ n < 0x20, codeUnit? '0' '0' (hexDigit (n / 16)) (hexDigit (n % 16)) = some n := by
  decide

theorem Spelled.pushUnit_of {n : Nat} (h : n < 0x20) (read : List Char) :
    (Spelled.of read).pushUnit n = .of (Char.ofNat n :: read) := by
  have hlow : isLowSurrogate n = false := by simp [isLowSurrogate]; omega
  have hhigh : isHighSurrogate n = false := by simp [isHighSurrogate]; omega
  rw [pushUnit, hlow, hhigh]
  rfl

theorem readString_cons {c : Char} (hquote : c ≠ '"') (hslash : c ≠ '\\')
    (hcontrol : ¬c.toNat < 0x20) (s : Spelled) (cs : List Symbol) :
    readString s (some c :: cs) = readString (s.push c) cs := by
  rw [readString, if_neg hcontrol]
  all_goals simp [hquote, hslash]

theorem readString_escape (read : List Char) (c : Char) (cs : List Symbol) :
    readString (.of read) ((escape c).map some ++ cs) = readString (.of (c :: read)) cs := by
  rw [escape.eq_def]
  split
  -- the characters that are written with one letter behind the backslash
  iterate 7 rfl
  next hquote hslash _ _ _ _ _ =>
    split
    next hcontrol =>
      simp only [List.map_cons, List.map_nil, List.cons_append, List.nil_append]
      rw [readString, codeUnit?_control _ hcontrol]
      simp only [Spelled.pushUnit_of hcontrol, Char.ofNat_toNat]
    next hcontrol => exact readString_cons hquote hslash hcontrol ..

theorem readString_flatMap_escape (read cs : List Char) (rest : List Symbol) :
    readString (.of read) ((cs.flatMap escape).map some ++ some '"' :: rest) =
      some (some (String.ofList (read.reverse ++ cs)), rest) := by
  induction cs generalizing read with
  | nil =>
    rw [List.append_nil]
    rfl
  | cons c cs ih =>
    rw [List.flatMap_cons, List.map_append, List.append_assoc, readString_escape, ih,
      List.reverse_cons, List.append_assoc, List.singleton_append]

def quoteTail (s : String) : List Char :=
  s.toList.flatMap escape ++ ['"']

theorem quote_eq_cons (s : String) : quote s = '"' :: quoteTail s :=
  rfl

theorem readString_quoteTail (s : String) (rest : List Symbol) :
    readString .empty ((quoteTail s).map some ++ rest) = some (some s, rest) := by
  have h := readString_flatMap_escape [] s.toList rest
  rw [List.reverse_nil, List.nil_append, String.ofList_toList] at h
  rw [quoteTail, List.map_append, List.append_assoc]
  exact h

-- ---------------------------------------------------------------------------
-- Blanks, brackets and values
-- ---------------------------------------------------------------------------

theorem skipSpaces_idem (cs : List Symbol) : skipSpaces (skipSpaces cs) = skipSpaces cs :=
  List.dropWhile_idempotent _ _

def Blanks (cs : List Char) : Prop :=
  ∀ c ∈ cs, isSpace (some c) = true

theorem blanks_nil : Blanks [] :=
  nofun

theorem blanks_single : Blanks [' '] := by
  simp [Blanks, isSpace]

theorem blanks_lineBreak (depth : Nat) : Blanks (lineBreak depth) := by
  simp [Blanks, lineBreak, isSpace]

theorem skipSpaces_blanks {blanks : List Char} (h : Blanks blanks) (cs : List Symbol) :
    skipSpaces (blanks.map some ++ cs) = skipSpaces cs := by
  have hspaces : ∀ c ∈ blanks.map some, isSpace c = true := by simpa [Blanks] using h
  rw [skipSpaces, List.dropWhile_append_of_pos hspaces, skipSpaces]

variable {fuel : Nat} {cs ds rest : List Symbol}

theorem readValue_congr (h : skipSpaces cs = skipSpaces ds) :
    readValue fuel cs = readValue fuel ds := by
  cases fuel with
  | zero => rfl
  | succ fuel => rw [readValue, readValue, h]

theorem readItems_congr (h : skipSpaces cs = skipSpaces ds) :
    readItems fuel cs = readItems fuel ds := by
  cases fuel with
  | zero => rfl
  | succ fuel => rw [readItems, readItems, readValue_congr h]

theorem readMembers_congr (h : skipSpaces cs = skipSpaces ds) :
    readMembers fuel cs = readMembers fuel ds := by
  cases fuel with
  | zero => rfl
  | succ fuel => rw [readMembers, readMembers, h]

theorem readItems_closing (h : skipSpaces cs = some ']' :: rest) : readItems fuel cs = none := by
  have hvalue : ∀ fuel, readValue fuel cs = none := by
    intro fuel
    cases fuel with
    | zero => rfl
    | succ fuel =>
      rw [readValue, h]
      rfl
  cases fuel with
  | zero => rfl
  | succ fuel => rw [readItems, hvalue]

theorem readMembers_closing (h : skipSpaces cs = some '\x7d' :: rest) :
    readMembers fuel cs = none := by
  cases fuel with
  | zero => rfl
  | succ fuel =>
    rw [readMembers, h]
    rfl

theorem readValue_array {items : List Json} (h : readItems fuel cs = some (items, rest)) :
    readValue (fuel + 1) (some '[' :: cs) = some (.array items, rest) := by
  have hopen : skipSpaces (some '[' :: cs) = some '[' :: cs := rfl
  rw [readValue, hopen]
  simp only
  split
  next hclosing => rw [readItems_closing hclosing] at h; cases h
  next => rw [readItems_congr (skipSpaces_idem cs), h]

theorem readValue_object {members : List (Option String × Json)}
    (h : readMembers fuel cs = some (members, rest)) :
    readValue (fuel + 1) (some '\x7b' :: cs) = some (.object members, rest) := by
  have hopen : skipSpaces (some '\x7b' :: cs) = some '\x7b' :: cs := rfl
  rw [readValue, hopen]
  simp only
  split
  next hclosing => rw [readMembers_closing hclosing] at h; cases h
  next => rw [readMembers_congr (skipSpaces_idem cs), h]

variable {between more : List Symbol}

theorem readItems_last {item : Json} (hitem : readValue fuel cs = some (item, between))
    (hclosing : skipSpaces between = some ']' :: rest) :
    readItems (fuel + 1) cs = some ([item], rest) := by
  rw [readItems, hitem]
  simp only [hclosing]

theorem readItems_more {item : Json} {items : List Json}
    (hitem : readValue fuel cs = some (item, between))
    (hcomma : skipSpaces between = some ',' :: more)
    (hitems : readItems fuel more = some (items, rest)) :
    readItems (fuel + 1) cs = some (item :: items, rest) := by
  rw [readItems, hitem]
  simp only [hcomma, hitems]

variable {key : Option String} {value : Json} {behindKey : List Symbol}

theorem readMembers_last (hkey : readKey (skipSpaces cs) = some (key, behindKey))
    (hvalue : readValue fuel behindKey = some (value, between))
    (hclosing : skipSpaces between = some '\x7d' :: rest) :
    readMembers (fuel + 1) cs = some ([(key, value)], rest) := by
  rw [readMembers, hkey]
  simp only [hvalue, hclosing]

theorem readMembers_more {members : List (Option String × Json)}
    (hkey : readKey (skipSpaces cs) = some (key, behindKey))
    (hvalue : readValue fuel behindKey = some (value, between))
    (hcomma : skipSpaces between = some ',' :: more)
    (hmembers : readMembers fuel more = some (members, rest)) :
    readMembers (fuel + 1) cs = some ((key, value) :: members, rest) := by
  rw [readMembers, hkey]
  simp only [hvalue, hcomma, hmembers]

theorem readKey_quote (key : String) (rest : List Symbol) :
    readKey ((quote key).map some ++ some ':' :: rest) = some (some key, rest) := by
  rw [quote_eq_cons, List.map_cons, List.cons_append, readKey, readString_quoteTail]
  rfl

/-- Holds no number, and every literal in it spells a text. -/
inductive Plain : Json → Prop
  | null : Plain .null
  | bool (b : Bool) : Plain (.bool b)
  | text (s : String) : Plain (.text s)
  | array {items : List Json} (h : ∀ item ∈ items, Plain item) : Plain (.array items)
  | record {members : List (String × Json)} (h : ∀ m ∈ members, Plain m.2) :
    Plain (.record members)

/-- The text is read as the value, whatever comes behind it. -/
def Reads (text : List Char) (j : Json) : Prop :=
  ∀ fuel rest, text.length ≤ fuel → readValue fuel (text.map some ++ rest) = some (j, rest)

theorem reads_of_succ {text : List Char} {j : Json} (hne : text ≠ [])
    (h : ∀ fuel rest, text.length ≤ fuel + 1 →
      readValue (fuel + 1) (text.map some ++ rest) = some (j, rest)) : Reads text j := by
  intro fuel rest hfuel
  have hpos := List.length_pos_of_ne_nil hne
  obtain ⟨fuel, rfl⟩ : ∃ n, fuel = n + 1 := ⟨fuel - 1, by omega⟩
  exact h fuel rest hfuel

theorem Reads.behind {text blanks : List Char} {j : Json} (h : Reads text j)
    (hblanks : Blanks blanks) : Reads (blanks ++ text) j := by
  intro fuel rest hfuel
  rw [List.length_append] at hfuel
  rw [List.map_append, List.append_assoc, readValue_congr (skipSpaces_blanks hblanks _),
    h fuel rest (by omega)]

theorem reads_text (s : String) : Reads (quote s) (.text s) := by
  refine reads_of_succ (List.cons_ne_nil _ _) fun fuel rest _ => ?_
  have hopen : skipSpaces (some '"' :: ((quoteTail s).map some ++ rest)) =
    some '"' :: ((quoteTail s).map some ++ rest) := rfl
  change readValue (fuel + 1) (some '"' :: ((quoteTail s).map some ++ rest)) = _
  rw [readValue, hopen]
  simp only [readString_quoteTail]
  rfl

-- ---------------------------------------------------------------------------
-- Lists of items and of members
-- ---------------------------------------------------------------------------

section

variable {spell : Json → List Char}

theorem readItems_intercalate {items : List Json} (h : ∀ item ∈ items, Reads (spell item) item)
    (hne : items ≠ []) (fuel : Nat)
    (hfuel : ([','].intercalate (items.map spell)).length < fuel)
    (hclosing : skipSpaces cs = some ']' :: rest) :
    readItems fuel (([','].intercalate (items.map spell)).map some ++ cs) = some (items, rest) := by
  induction items generalizing fuel with
  | nil => exact absurd rfl hne
  | cons item items ih =>
    have hitem := h item (by simp)
    obtain ⟨fuel, rfl⟩ : ∃ n, fuel = n + 1 := ⟨fuel - 1, by omega⟩
    cases items with
    | nil =>
      simp only [List.map_cons, List.map_nil, List.intercalate_singleton] at hfuel ⊢
      exact readItems_last (hitem fuel cs (by omega)) hclosing
    | cons second items =>
      simp only [List.map_cons, List.intercalate_cons_cons, List.length_append,
        List.length_singleton] at hfuel
      have hrest := ih (fun i hi => h i (by simp [hi])) (by simp) fuel
        (by simp only [List.map_cons]; omega)
      simp only [List.map_cons, List.intercalate_cons_cons, List.map_append,
        List.append_assoc, List.cons_append, List.nil_append] at hrest ⊢
      exact readItems_more (hitem fuel _ (by omega)) rfl hrest

def memberChars (lead : List Char) (spell : Json → List Char) (m : String × Json) : List Char :=
  lead ++ quote m.1 ++ ':' :: spell m.2

theorem readKey_memberChars {lead : List Char} (hlead : Blanks lead) (m : String × Json)
    (behind : List Symbol) :
    readKey (skipSpaces ((memberChars lead spell m).map some ++ behind)) =
      some (some m.1, (spell m.2).map some ++ behind) := by
  have hquote : ∀ cs, skipSpaces ((quote m.1).map some ++ cs) = (quote m.1).map some ++ cs :=
    fun _ => rfl
  rw [memberChars, List.map_append, List.map_append, List.append_assoc, List.append_assoc,
    skipSpaces_blanks hlead, hquote, List.map_cons, List.cons_append, readKey_quote]

def keyed (members : List (String × Json)) : List (Option String × Json) :=
  members.map fun (key, value) => (some key, value)

theorem readMembers_intercalate {lead : List Char} (hlead : Blanks lead)
    {members : List (String × Json)} (h : ∀ m ∈ members, Reads (spell m.2) m.2)
    (hne : members ≠ []) (fuel : Nat)
    (hfuel : ([','].intercalate (members.map (memberChars lead spell))).length < fuel)
    (hclosing : skipSpaces cs = some '\x7d' :: rest) :
    readMembers fuel
      (([','].intercalate (members.map (memberChars lead spell))).map some ++ cs) =
        some (keyed members, rest) := by
  induction members generalizing fuel with
  | nil => exact absurd rfl hne
  | cons member members ih =>
    have hvalue := h member (by simp)
    have hlength : (spell member.2).length ≤ (memberChars lead spell member).length := by
      simp only [memberChars, List.length_append, List.length_cons]
      omega
    obtain ⟨fuel, rfl⟩ : ∃ n, fuel = n + 1 := ⟨fuel - 1, by omega⟩
    cases members with
    | nil =>
      simp only [List.map_cons, List.map_nil, List.intercalate_singleton] at hfuel ⊢
      exact readMembers_last (readKey_memberChars hlead member cs)
        (hvalue fuel cs (by omega)) hclosing
    | cons second members =>
      simp only [List.map_cons, List.intercalate_cons_cons, List.length_append,
        List.length_singleton] at hfuel
      have hrest := ih (fun m hm => h m (by simp [hm])) (by simp) fuel
        (by simp only [List.map_cons]; omega)
      simp only [List.map_cons, List.intercalate_cons_cons, List.map_append,
        List.append_assoc, List.cons_append, List.nil_append] at hrest ⊢
      exact readMembers_more (readKey_memberChars hlead member _) (hvalue fuel _ (by omega)) rfl
        hrest

theorem reads_array (spell : Json → List Char) {items : List Json}
    (h : ∀ item ∈ items, Reads (spell item) item) (hne : items ≠ [])
    {blanks : List Char} (hblanks : Blanks blanks) :
    Reads ('[' :: [','].intercalate (items.map spell) ++ blanks ++ [']']) (.array items) := by
  refine reads_of_succ (by simp) fun fuel rest hfuel => ?_
  simp only [List.length_append, List.length_cons] at hfuel
  simp only [List.map_append, List.append_assoc, List.map_cons, List.cons_append]
  refine readValue_array (readItems_intercalate h hne fuel (by omega) ?_)
  rw [skipSpaces_blanks hblanks]
  rfl

theorem reads_record (spell : Json → List Char) {lead : List Char} (hlead : Blanks lead)
    {members : List (String × Json)} (h : ∀ m ∈ members, Reads (spell m.2) m.2)
    (hne : members ≠ []) {blanks : List Char} (hblanks : Blanks blanks) :
    Reads ('\x7b' :: [','].intercalate (members.map (memberChars lead spell)) ++ blanks ++ ['\x7d'])
      (.record members) := by
  refine reads_of_succ (by simp) fun fuel rest hfuel => ?_
  simp only [List.length_append, List.length_cons] at hfuel
  simp only [List.map_append, List.append_assoc, List.map_cons, List.cons_append]
  refine readValue_object (readMembers_intercalate hlead h hne fuel (by omega) ?_)
  rw [skipSpaces_blanks hblanks]
  rfl

end

-- ---------------------------------------------------------------------------
-- The two forms
-- ---------------------------------------------------------------------------

theorem eq_intercalate {α : Type} (write : List α → List Char) (part : α → List Char)
    (hnil : write [] = []) (hone : ∀ a, write [a] = part a)
    (hmore : ∀ a b rest, write (a :: b :: rest) = part a ++ ',' :: write (b :: rest))
    (as : List α) : write as = [','].intercalate (as.map part) := by
  induction as with
  | nil => exact hnil
  | cons a as ih =>
    cases as with
    | nil => simp [hone]
    | cons b as => rw [hmore, ih]; simp

theorem itemsChars_eq (items : List Json) :
    itemsChars items = [','].intercalate (items.map chars) :=
  eq_intercalate itemsChars chars rfl (fun _ => rfl) (fun _ _ _ => rfl) items

theorem membersChars_eq (members : List (String × Json)) :
    membersChars (keyed members) = [','].intercalate (members.map (memberChars [] chars)) := by
  refine eq_intercalate (fun members => membersChars (keyed members)) (memberChars [] chars) rfl
    (fun _ => rfl) (fun m n rest => ?_) members
  simp [keyed, membersChars, memberChars, literal]

theorem indentedItems_eq (depth : Nat) (items : List Json) :
    indentedItems depth items =
      [','].intercalate (items.map fun item => lineBreak depth ++ indentedChars depth item) :=
  eq_intercalate (indentedItems depth) (fun item => lineBreak depth ++ indentedChars depth item) rfl
    (fun _ => rfl) (fun _ _ _ => rfl) items

theorem indentedMembers_eq (depth : Nat) (members : List (String × Json)) :
    indentedMembers depth (keyed members) = [','].intercalate
      (members.map (memberChars (lineBreak depth) fun j => [' '] ++ indentedChars depth j)) := by
  refine eq_intercalate (fun members => indentedMembers depth (keyed members))
    (memberChars (lineBreak depth) _) rfl (fun m => ?_) (fun m n rest => ?_) members
  · simp [keyed, indentedMembers, memberChars, literal]
  · simp [keyed, indentedMembers, memberChars, literal]

theorem Plain.reads_chars {j : Json} (h : Plain j) : Reads j.chars j := by
  induction h with
  | null => exact reads_of_succ nofun fun _ _ _ => rfl
  | bool b => cases b <;> exact reads_of_succ nofun fun _ _ _ => rfl
  | text s => exact reads_text s
  | @array items _ ih =>
    cases items with
    | nil => exact reads_of_succ nofun fun _ _ _ => rfl
    | cons item items =>
      have h := reads_array chars ih (List.cons_ne_nil _ _) blanks_nil
      rwa [← itemsChars_eq, List.append_nil] at h
  | @record members _ ih =>
    cases members with
    | nil => exact reads_of_succ nofun fun _ _ _ => rfl
    | cons m members =>
      have h := reads_record chars blanks_nil ih (List.cons_ne_nil _ _) blanks_nil
      rwa [← membersChars_eq, List.append_nil] at h

theorem Plain.reads_indentedChars {j : Json} (h : Plain j) (depth : Nat) :
    Reads (indentedChars depth j) j := by
  induction h generalizing depth with
  | null => exact reads_of_succ nofun fun _ _ _ => rfl
  | bool b => cases b <;> exact reads_of_succ nofun fun _ _ _ => rfl
  | text s => exact reads_text s
  | @array items _ ih =>
    cases items with
    | nil => exact reads_of_succ nofun fun _ _ _ => rfl
    | cons item items =>
      have hline : ∀ i ∈ item :: items,
          Reads (lineBreak (depth + 1) ++ indentedChars (depth + 1) i) i :=
        fun i hi => (ih i hi (depth + 1)).behind (blanks_lineBreak _)
      have h := reads_array _ hline (List.cons_ne_nil _ _) (blanks_lineBreak depth)
      rwa [← indentedItems_eq] at h
  | @record members _ ih =>
    cases members with
    | nil => exact reads_of_succ nofun fun _ _ _ => rfl
    | cons m members =>
      have hvalue : ∀ n ∈ m :: members, Reads ([' '] ++ indentedChars (depth + 1) n.2) n.2 :=
        fun n hn => (ih n hn (depth + 1)).behind blanks_single
      have h := reads_record (fun j => [' '] ++ indentedChars (depth + 1) j)
        (blanks_lineBreak (depth + 1)) hvalue (List.cons_ne_nil _ _) (blanks_lineBreak depth)
      rwa [← indentedMembers_eq] at h

theorem Reads.ofString? {text : List Char} {j : Json} (h : Reads text j) :
    ofString? (String.ofList text) = some j := by
  have hread := h (2 * (text.map some).length + 1) [] (by rw [List.length_map]; omega)
  rw [List.append_nil] at hread
  rw [Json.ofString?, Text.symbolsOf, String.toList_ofList, read?, hread]
  rfl

theorem ofString?_indented {j : Json} (h : Plain j) : ofString? j.indented = some j :=
  (h.reads_indentedChars 0).ofString?

theorem ofString?_compact {j : Json} (h : Plain j) : ofString? j.compact = some j :=
  h.reads_chars.ofString?

theorem ofBytes?_toUTF8 (document : String) : ofBytes? document.toUTF8 = ofString? document := by
  rw [ofBytes?, Text.symbols_toUTF8, ofString?]

theorem ofString?_compact_text (s : String) : ofString? (text s).compact = some (text s) :=
  ofString?_compact (.text s)

-- ---------------------------------------------------------------------------
-- Values and records that are stored
-- ---------------------------------------------------------------------------

variable {α : Type}

/-- The value is written as plain JSON and read from it again. -/
structure Stored (encode : α → Json) (decode : Json → Option α) (a : α) : Prop where
  plain : Plain (encode a)
  decode_encode : decode (encode a) = some a

namespace Stored

theorem text (s : String) : Stored Json.text text? s :=
  ⟨.text s, rfl⟩

theorem bool (b : Bool) : Stored Json.bool bool? b :=
  ⟨.bool b, rfl⟩

variable {encode : α → Json} {decode : Json → Option α}

theorem list {as : List α} (h : ∀ a ∈ as, Stored encode decode a) :
    Stored (fun as => .array (as.map encode)) (list? decode) as where
  plain := .array (by simpa using fun a ha => (h a ha).plain)
  decode_encode := Text.mapM_map_eq_some fun a ha => (h a ha).decode_encode

theorem texts (ss : List String) : Stored Json.texts texts? ss :=
  list fun s _ => text s

theorem option (hnull : ∀ a, encode a ≠ .null) {o : Option α}
    (h : ∀ a ∈ o, Stored encode decode a) : Stored (ofOption encode) (option? decode) o := by
  cases o with
  | none => exact ⟨.null, rfl⟩
  | some a =>
    obtain ⟨hplain, hread⟩ := h a rfl
    refine ⟨hplain, ?_⟩
    rw [ofOption, option?, hread, Option.map_some]
    exact hnull a

theorem optionText (o : Option String) : Stored (ofOption Json.text) (option? text?) o :=
  option nofun fun s _ => text s

theorem optionTexts (o : Option (List String)) : Stored (ofOption Json.texts) (option? texts?) o :=
  option nofun fun ss _ => texts ss

end Stored

theorem exists_of_mem_mapM {decode : Json → Option α} {items : List Json} {as : List α} {a : α}
    (h : items.mapM decode = some as) (ha : a ∈ as) : ∃ item ∈ items, decode item = some a := by
  induction items generalizing as with
  | nil => cases h; cases ha
  | cons item items ih =>
    rw [List.mapM_cons] at h
    obtain ⟨b, hb, h⟩ := Option.bind_eq_some_iff.mp h
    obtain ⟨bs, hbs, h⟩ := Option.bind_eq_some_iff.mp h
    cases h
    rcases List.mem_cons.mp ha with rfl | ha
    · exact ⟨item, by simp, hb⟩
    · obtain ⟨found, hmem, hfound⟩ := ih hbs ha
      exact ⟨found, by simp [hmem], hfound⟩

theorem exists_of_mem_list? {decode : Json → Option α} {j : Json} {as : List α} {a : α}
    (h : list? decode j = some as) (ha : a ∈ as) : ∃ item, decode item = some a := by
  obtain ⟨items, -, h⟩ := Option.bind_eq_some_iff.mp h
  obtain ⟨item, -, hitem⟩ := exists_of_mem_mapM h ha
  exact ⟨item, hitem⟩

theorem defaulted_some (decode : Json → Option α) (default : α) (j : Json) :
    defaulted decode default (some j) = decode j :=
  rfl

theorem bind_of_eq {β : Type} {x : Option α} {a : α} {f : α → Option β} {b : Option β}
    (hx : x = some a) (hf : f a = b) : x >>= f = b := by
  rw [hx, Option.bind_eq_bind, Option.bind_some, hf]

variable {members : List (String × Json)} {names : List String}

theorem members?_record (members : List (String × Json)) :
    (record members).members? = some members :=
  Text.mapM_map_eq_some fun _ _ => rfl

/-- A record that is written with each field once is read by its fields. -/
theorem fields?_record (hnames : members.map (·.1) = names) (hnodup : names.Nodup) :
    (record members).fields? names = some fun name => members.lookup name := by
  have honce : (names.all fun name => (members.filter (·.1 == name)).length ≤ 1) = true := by
    rw [List.all_eq_true]
    intro name _
    rw [decide_eq_true_iff, ← List.countP_eq_length_filter]
    calc members.countP (·.1 == name)
        = (members.map (·.1)).count name := by rw [List.count, List.countP_map]; rfl
      _ ≤ 1 := List.nodup_iff_count.mp (hnames ▸ hnodup) name
  rw [fields?, members?_record]
  · simp only [honce, if_true]
  · nofun

end Json

end PackageAlgebra
