import PackageAlgebra.Depend.Parser

/-!
# The grammar of dependency trees

`Items words nodes`: the words spell the nodes, by the grammar of the text
form. `readWords_eq_ok_iff`: the reader accepts exactly the words that the
grammar derives with groups at most 256 deep, and gives the nodes that they
spell. In every other case there is an error.
-/

namespace PackageAlgebra

-- ---------------------------------------------------------------------------
-- The grammar
-- ---------------------------------------------------------------------------

/-- An ASCII letter or digit, then any number of those and of `+ _ @ -`. -/
def IsFlag (flag : String) : Prop :=
  ∃ c cs, flag.toList = c :: cs ∧ c.isAlphanum = true ∧
    ∀ d ∈ cs, d.isAlphanum = true ∨ d ∈ ['+', '_', '@', '-']

/-- A word that is no bracket, no sign and no condition. -/
def IsLeafWord (word : String) : Prop :=
  word ∉ ["(", ")", "||", "^^", "??"] ∧ word.toList.getLast? ≠ some '?'

/-- The sign in front of the brackets of a group. -/
inductive IsSign : List String → GroupKind → Prop
  | allOf : IsSign [] .allOf
  | anyOf : IsSign ["||"] .anyOf
  | exactlyOne : IsSign ["^^"] .exactlyOne
  | atMostOne : IsSign ["??"] .atMostOne

/-- The word in front of the brackets of a conditional, its flag, and whether it is negated. -/
inductive IsCondition : String → String → Bool → Prop
  | set {flag : String} : IsFlag flag → IsCondition (flag ++ "?") flag false
  | unset {flag : String} : IsFlag flag → IsCondition ("!" ++ flag ++ "?") flag true

mutual

inductive Item {α : Type} [Leaf α] : List String → Dep α → Prop
  | leaf {word : String} {a : α} : IsLeafWord word → Leaf.read word = .ok a → Item [word] (.leaf a)
  | group {sign words : List String} {kind : GroupKind} {children : List (Dep α)} :
      IsSign sign kind → Items words children →
      Item (sign ++ "(" :: words ++ [")"]) (.group kind children)
  | conditional {word flag : String} {negated : Bool} {words : List String}
      {children : List (Dep α)} : IsCondition word flag negated → Items words children →
      Item (word :: "(" :: words ++ [")"]) (.conditional flag negated children)

inductive Items {α : Type} [Leaf α] : List String → List (Dep α) → Prop
  | nil : Items [] []
  | cons {words rest : List String} {node : Dep α} {nodes : List (Dep α)} :
      Item words node → Items rest nodes → Items (words ++ rest) (node :: nodes)

end

namespace Dep

mutual

def depth : Dep α → Nat
  | .leaf _ => 0
  | .group _ children => depthAll children + 1
  | .conditional _ _ children => depthAll children + 1

def depthAll : List (Dep α) → Nat
  | [] => 0
  | node :: nodes => max (depth node) (depthAll nodes)

end

end Dep

/-- The words in front of an opening bracket, and what the reader takes them for. -/
inductive Front : List String → Opening → Prop
  | group {sign : List String} {kind : GroupKind} : IsSign sign kind → Front sign (.group kind)
  | conditional {word flag : String} {negated : Bool} :
      IsCondition word flag negated → Front [word] (.conditional flag negated)

theorem Item.block [Leaf α] {front words : List String} {opening : Opening}
    {children : List (Dep α)} (h : Front front opening) (hchildren : Items words children) :
    Item (front ++ "(" :: words ++ [")"]) (opening.node children) := by
  cases h with
  | group hsign => exact .group hsign hchildren
  | conditional hword => exact .conditional hword hchildren

theorem depth_node (opening : Opening) (children : List (Dep α)) :
    (opening.node children).depth = Dep.depthAll children + 1 := by
  cases opening <;> rfl

-- ---------------------------------------------------------------------------
-- What a word is
-- ---------------------------------------------------------------------------

theorem isFlagName_iff (flag : String) : Text.isFlagName flag.toList = true ↔ IsFlag flag := by
  have hmark (d : Char) : (Text.isNameStart d || ['+', '@', '-'].contains d) = true ↔
      d.isAlphanum = true ∨ d ∈ ['+', '_', '@', '-'] := by
    simp only [Text.isNameStart, Bool.or_eq_true, beq_iff_eq, List.contains_iff_mem, List.mem_cons,
      List.not_mem_nil, or_false]
    grind
  unfold IsFlag
  cases flag.toList with
  | nil => simp [Text.isFlagName]
  | cons c cs => simp only [Text.isFlagName, Bool.and_eq_true, List.all_eq_true, hmark,
      List.cons.injEq, exists_and_left, exists_eq_left', and_assoc]

theorem IsFlag.head {flag : String} (h : IsFlag flag) :
    ∃ c cs, flag.toList = c :: cs ∧ c.isAlphanum = true := by
  obtain ⟨c, cs, hcs, hc, -⟩ := h
  exact ⟨c, cs, hcs, hc⟩

theorem readCondition_eq_some_iff (cs : List Char) (opening : Opening) :
    readCondition cs = some opening ↔
      ∃ flag, IsFlag flag ∧ (cs = flag.toList ∧ opening = .conditional flag false ∨
        cs = '!' :: flag.toList ∧ opening = .conditional flag true) := by
  unfold readCondition
  split
  next negated flag heq =>
    split at heq
    next rest =>
      -- no flag begins with the mark of negation
      obtain ⟨rfl, rfl⟩ := Prod.mk.inj heq
      constructor
      · intro h
        obtain ⟨hflag, hopening⟩ := Option.ite_none_right_eq_some.mp h
        refine ⟨String.ofList rest, (isFlagName_iff _).mp (by simpa using hflag), .inr ?_⟩
        exact ⟨by simp, (Option.some.inj hopening).symm⟩
      · rintro ⟨flag, hflag, ⟨hcs, -⟩ | ⟨hcs, rfl⟩⟩
        · obtain ⟨c, cs, hc, halnum⟩ := hflag.head
          rw [hc] at hcs
          obtain ⟨rfl, -⟩ := List.cons.inj hcs
          exact absurd halnum (by decide)
        · obtain ⟨-, rfl⟩ := List.cons.inj hcs
          rw [if_pos ((isFlagName_iff flag).mpr hflag), String.ofList_toList]
    next hno =>
      obtain ⟨rfl, rfl⟩ := Prod.mk.inj heq
      constructor
      · intro h
        obtain ⟨hflag, hopening⟩ := Option.ite_none_right_eq_some.mp h
        refine ⟨String.ofList cs, (isFlagName_iff _).mp (by simpa using hflag), .inl ?_⟩
        exact ⟨by simp, (Option.some.inj hopening).symm⟩
      · rintro ⟨flag, hflag, ⟨rfl, rfl⟩ | ⟨hcs, -⟩⟩
        · rw [if_pos ((isFlagName_iff flag).mpr hflag), String.ofList_toList]
        · exact absurd hcs (hno _)

theorem classify_condition {word : String} {cs : List Char} {opening : Opening}
    (hword : word.toList = cs ++ ['?']) (h : readCondition cs = some opening) :
    Word.classify word = .introduces opening := by
  have hne (other : String) (hother : other.toList.getLast? ≠ some '?') : word ≠ other := by
    rintro rfl
    simp [hword] at hother
  have hsign : word ≠ "??" := by
    rintro rfl
    have hcs : cs = ['?'] := (List.append_inj_left' hword rfl).symm
    have hnone : readCondition ['?'] = none := by decide
    rw [hcs, hnone] at h
    cases h
  unfold Word.classify
  rw [if_neg (hne _ (by decide)), if_neg (hne _ (by decide)), if_neg (hne _ (by decide)),
    if_neg (hne _ (by decide)), if_neg hsign, hword, List.getLast?_concat, if_pos rfl,
    List.dropLast_concat, h]

theorem classify_eq_introduces_iff (word : String) (opening : Opening) :
    Word.classify word = .introduces opening ↔ Front [word] opening := by
  constructor
  · intro h
    unfold Word.classify at h
    repeat' split at h
    all_goals simp only [reduceCtorEq, Word.introduces.injEq] at h
    next heq => exact heq ▸ h ▸ .group .anyOf
    next heq => exact heq ▸ h ▸ .group .exactlyOne
    next heq => exact heq ▸ h ▸ .group .atMostOne
    next hlast _ o hread =>
      subst h
      obtain ⟨cs, hword⟩ := List.getLast?_eq_some_iff.mp hlast
      rw [hword, List.dropLast_concat] at hread
      obtain ⟨flag, hflag, ⟨rfl, rfl⟩ | ⟨rfl, rfl⟩⟩ := (readCondition_eq_some_iff _ _).mp hread
      · have hw : word = flag ++ "?" := String.toList_inj.mp (by simp [hword])
        exact hw ▸ .conditional (.set hflag)
      · have hw : word = "!" ++ flag ++ "?" := String.toList_inj.mp (by simp [hword])
        exact hw ▸ .conditional (.unset hflag)
  · intro h
    cases h with
    | group hsign => cases hsign <;> decide
    | @conditional _ flag _ hword =>
      cases hword with
      | set hflag =>
        have hword : (flag ++ "?").toList = flag.toList ++ ['?'] := by simp
        exact classify_condition hword
          ((readCondition_eq_some_iff _ _).mpr ⟨flag, hflag, .inl ⟨rfl, rfl⟩⟩)
      | unset hflag =>
        have hword : ("!" ++ flag ++ "?").toList = '!' :: flag.toList ++ ['?'] := by simp
        exact classify_condition hword
          ((readCondition_eq_some_iff _ _).mpr ⟨flag, hflag, .inr ⟨rfl, rfl⟩⟩)

theorem classify_eq_leaf_iff (word : String) : Word.classify word = .leaf ↔ IsLeafWord word := by
  unfold Word.classify IsLeafWord
  simp only [List.mem_cons, List.not_mem_nil, or_false, not_or]
  repeat' split
  all_goals simp_all

theorem classify_eq_opening_iff (word : String) : Word.classify word = .opening ↔ word = "(" := by
  unfold Word.classify
  repeat' split
  all_goals simp_all

theorem classify_eq_closing_iff (word : String) : Word.classify word = .closing ↔ word = ")" := by
  unfold Word.classify
  repeat' split
  all_goals simp_all

-- ---------------------------------------------------------------------------
-- What the grammar derives is read
-- ---------------------------------------------------------------------------

namespace DepSet

variable {α : Type} [Leaf α]

theorem readWords_leaf {word : String} {a : α} (hword : IsLeafWord word)
    (ha : Leaf.read word = .ok a) (frames : List (Frame α)) (done : List (Dep α))
    (rest : List String) :
    readWords frames done (word :: rest) = readWords frames (.leaf a :: done) rest := by
  cases frames <;> rw [readWords, (classify_eq_leaf_iff word).mpr hword, ha]

theorem readWords_close (frame : Frame α) (frames : List (Frame α)) (done : List (Dep α))
    (rest : List String) :
    readWords (frame :: frames) done (")" :: rest) =
      readWords frames (frame.opening.node done.reverse :: frame.before) rest := by
  rw [readWords, (classify_eq_closing_iff ")").mpr rfl]

theorem readWords_front {front : List String} {opening : Opening} (h : Front front opening)
    (frames : List (Frame α)) (done : List (Dep α)) (rest : List String) :
    readWords frames done (front ++ "(" :: rest) =
      if frames.length < maxDepth then readWords (⟨done, opening⟩ :: frames) [] rest
      else .error .tooDeep := by
  have introduced {word : String} (h : Front [word] opening) :
      readWords frames done (word :: "(" :: rest) =
        if frames.length < maxDepth then readWords (⟨done, opening⟩ :: frames) [] rest
        else .error .tooDeep := by
    cases frames <;> rw [readWords, (classify_eq_introduces_iff word opening).mpr h] <;> rfl
  cases h with
  | conditional hword => exact introduced (.conditional hword)
  | group hsign =>
    cases hsign with
    | allOf =>
      cases frames <;> rw [List.nil_append, readWords, (classify_eq_opening_iff "(").mpr rfl]
    | anyOf => exact introduced (.group .anyOf)
    | exactlyOne => exact introduced (.group .exactlyOne)
    | atMostOne => exact introduced (.group .atMostOne)

theorem readWords_block {front inner : List String} {opening : Opening}
    {children : List (Dep α)} (hfront : Front front opening) {frames : List (Frame α)}
    {done : List (Dep α)} (rest : List String) (hlt : frames.length < maxDepth)
    (hinner : readWords (⟨done, opening⟩ :: frames) [] (inner ++ ")" :: rest) =
      readWords (⟨done, opening⟩ :: frames) (children.reverse ++ []) (")" :: rest)) :
    readWords frames done (front ++ "(" :: inner ++ [")"] ++ rest) =
      readWords frames (opening.node children :: done) rest := by
  have hlist : front ++ "(" :: inner ++ [")"] ++ rest =
      front ++ "(" :: (inner ++ ")" :: rest) := by simp
  rw [hlist, readWords_front hfront, if_pos hlt, hinner, readWords_close, List.append_nil,
    List.reverse_reverse]

mutual

theorem readWords_item {words : List String} {node : Dep α} (frames : List (Frame α))
    (done : List (Dep α)) (rest : List String) :
    Item words node → node.depth + frames.length ≤ maxDepth →
      readWords frames done (words ++ rest) = readWords frames (node :: done) rest
  | .leaf hword ha, _ => readWords_leaf hword ha frames done rest
  | .group hsign hchildren, hdepth => by
    rw [Dep.depth] at hdepth
    exact readWords_block (.group hsign) rest (by omega)
      (readWords_items _ _ _ hchildren (by simp only [List.length_cons]; omega))
  | .conditional hword hchildren, hdepth => by
    rw [Dep.depth] at hdepth
    exact readWords_block (.conditional hword) rest (by omega)
      (readWords_items _ _ _ hchildren (by simp only [List.length_cons]; omega))

theorem readWords_items {words : List String} {nodes : List (Dep α)} (frames : List (Frame α))
    (done : List (Dep α)) (rest : List String) :
    Items words nodes → Dep.depthAll nodes + frames.length ≤ maxDepth →
      readWords frames done (words ++ rest) = readWords frames (nodes.reverse ++ done) rest
  | .nil, _ => rfl
  | .cons hnode hnodes, hdepth => by
    simp only [Dep.depthAll] at hdepth
    rw [List.append_assoc, readWords_item frames done _ hnode (by omega),
      readWords_items frames _ rest hnodes (by omega), List.reverse_cons, List.append_assoc]
    rfl

end

-- ---------------------------------------------------------------------------
-- What is read is derived by the grammar
-- ---------------------------------------------------------------------------

/-- The words finish the nodes of every open frame, from the innermost out. -/
def Finishes : List (Frame α) → List (Dep α) → List String → DepSet α → Prop
  | [], done, words, deps =>
    ∃ nodes, Items words nodes ∧ Dep.depthAll nodes ≤ maxDepth ∧ deps = done.reverse ++ nodes
  | frame :: frames, done, words, deps =>
    ∃ inner nodes rest, words = inner ++ ")" :: rest ∧ Items inner nodes ∧
      Dep.depthAll nodes + (frames.length + 1) ≤ maxDepth ∧
      Finishes frames (frame.opening.node (done.reverse ++ nodes) :: frame.before) rest deps

theorem Finishes.item {frames : List (Frame α)} {done : List (Dep α)} {words rest : List String}
    {node : Dep α} {deps : DepSet α} (hitem : Item words node)
    (hdepth : node.depth + frames.length ≤ maxDepth)
    (h : Finishes frames (node :: done) rest deps) :
    Finishes frames done (words ++ rest) deps := by
  cases frames with
  | nil =>
    obtain ⟨nodes, hitems, hd, rfl⟩ := h
    refine ⟨node :: nodes, .cons hitem hitems, ?_, by simp⟩
    simp only [Dep.depthAll, List.length_nil] at hdepth ⊢
    omega
  | cons frame frames =>
    obtain ⟨inner, nodes, rest, rfl, hitems, hd, hrest⟩ := h
    refine ⟨words ++ inner, node :: nodes, rest, by simp, .cons hitem hitems, ?_, ?_⟩
    · simp only [Dep.depthAll, List.length_cons] at hdepth ⊢
      omega
    · simpa using hrest

theorem Finishes.block {frames : List (Frame α)} {done : List (Dep α)} {front words : List String}
    {opening : Opening} {deps : DepSet α} (hfront : Front front opening)
    (h : Finishes (⟨done, opening⟩ :: frames) [] words deps) :
    Finishes frames done (front ++ "(" :: words) deps := by
  obtain ⟨inner, nodes, rest, rfl, hitems, hdepth, hrest⟩ := h
  have hlist : front ++ "(" :: (inner ++ ")" :: rest) =
      (front ++ "(" :: inner ++ [")"]) ++ rest := by simp
  rw [hlist]
  refine Finishes.item (Item.block hfront hitems) ?_ hrest
  rw [depth_node]
  omega

theorem finishes_of_readWords {frames : List (Frame α)} {done : List (Dep α)} {words : List String}
    {deps : DepSet α} (hframes : frames.length ≤ maxDepth)
    (h : readWords frames done words = .ok deps) : Finishes frames done words deps := by
  fun_induction readWords frames done words with
  | case1 frames done hempty =>
    cases h
    cases frames with
    | nil => exact ⟨[], .nil, Nat.zero_le _, by simp⟩
    | cons => simp at hempty
  | case4 done word words hword frame frames ih =>
    obtain rfl := (classify_eq_closing_iff word).mp hword
    simp only [List.length_cons] at hframes
    refine ⟨[], [], words, rfl, .nil, ?_, ?_⟩
    · simp only [Dep.depthAll]
      omega
    · simpa using ih (by omega) h
  | case5 frames done word words hword hlt ih =>
    obtain rfl := (classify_eq_opening_iff word).mp hword
    exact Finishes.block (.group .allOf) (ih hlt h)
  | case7 frames done word opening hword words hlt ih =>
    have hfront : Front [word] opening := (classify_eq_introduces_iff word opening).mp hword
    exact Finishes.block hfront (ih hlt h)
  | case11 frames done word words hword a hread ih =>
    have hleaf : IsLeafWord word := (classify_eq_leaf_iff word).mp hword
    exact Finishes.item (.leaf hleaf hread) (by simpa [Dep.depth] using hframes) (ih hframes h)
  -- every other case ends in an error
  | case2 => cases h
  | case3 => cases h
  | case6 => cases h
  | case8 => cases h
  | case9 => cases h
  | case10 => cases h
  | case12 => cases h

theorem readWords_eq_ok_iff (words : List String) (deps : DepSet α) :
    readWords [] [] words = .ok deps ↔ Items words deps ∧ Dep.depthAll deps ≤ maxDepth := by
  constructor
  · intro h
    obtain ⟨nodes, hitems, hdepth, rfl⟩ := finishes_of_readWords (Nat.zero_le _) h
    exact ⟨hitems, hdepth⟩
  · rintro ⟨hitems, hdepth⟩
    have h := readWords_items [] [] [] hitems (by simpa using hdepth)
    rw [List.append_nil] at h
    rw [h, readWords]
    simp

theorem parse_eq_ok_iff (text : String) (deps : DepSet α) :
    parse text = .ok deps ↔ Items (Text.wordsOf text) deps ∧ Dep.depthAll deps ≤ maxDepth :=
  readWords_eq_ok_iff (Text.wordsOf text) deps

theorem parse_exact :
    (∀ (words : List String) (deps : DepSet α),
      readWords [] [] words = .ok deps ↔ Items words deps ∧ Dep.depthAll deps ≤ 256) ∧
    ∀ text : String,
      (∃ deps : DepSet α, parse text = .ok deps ∧ Items (Text.wordsOf text) deps ∧
        Dep.depthAll deps ≤ 256) ∨
      ∃ e : ExpressionError, parse (α := α) text = .error e ∧
        e.message = "Invalid dependency expression: " ++ e.reason ∧
        ∀ deps : DepSet α, ¬(Items (Text.wordsOf text) deps ∧ Dep.depthAll deps ≤ 256) := by
  refine ⟨readWords_eq_ok_iff, ?_⟩
  intro text
  cases h : parse (α := α) text with
  | ok deps => exact .inl ⟨deps, rfl, (parse_eq_ok_iff text deps).mp h⟩
  | error e =>
    refine .inr ⟨e, rfl, rfl, ?_⟩
    intro deps hderives
    rw [(parse_eq_ok_iff text deps).mpr hderives] at h
    cases h

end DepSet

end PackageAlgebra
