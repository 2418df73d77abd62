import PackageAlgebra.Proofs.Except
import PackageAlgebra.Proofs.Query.AtomGroup
import PackageAlgebra.Proofs.Repository.Index
import PackageAlgebra.Repository.Config

/-!
# A repository on top of a stack

The better of two packages is an associative operation, so the best package
behind an atom is found in each part of a stack by itself. A repository without
a priority takes its position for one, which loading and renaming keep, so
priorities ascend along the stack and later repositories win ties.
-/

namespace PackageAlgebra

open Std (TransCmp)
open Package (compareTo key identity)

variable {P : Type} [Package P]

theorem better_of_lt {p q : P} (h : compareTo q p = .lt) : better p q = p :=
  if_pos h

theorem better_of_not_lt {p q : P} (h : compareTo q p ≠ .lt) : better p q = q :=
  if_neg h

instance : Std.Associative (better : P → P → P) where
  assoc p q r := by
    by_cases hqp : compareTo q p = .lt
    · by_cases hrq : compareTo r q = .lt
      · have hrp : compareTo r p = .lt := TransCmp.lt_trans hrq hqp
        rw [better_of_lt hqp, better_of_lt hrq, better_of_lt hqp, better_of_lt hrp]
      · rw [better_of_lt hqp, better_of_not_lt hrq]
    · by_cases hrq : compareTo r q = .lt
      · rw [better_of_not_lt hqp, better_of_lt hrq, better_of_not_lt hqp]
      · have hpq : (compareTo p q).isLE = true := Package.isLE_of_ne_lt hqp
        have hrp : compareTo r p ≠ .lt := fun h => hrq (TransCmp.lt_of_lt_of_isLE h hpq)
        rw [better_of_not_lt hqp, better_of_not_lt hrq, better_of_not_lt hrp]

theorem key_foldl_better {p : P} {ps : List P} (h : ∀ q ∈ ps, key q = key p) :
    key (ps.foldl better p) = key p := by
  induction ps generalizing p with
  | nil => rfl
  | cons q ps ih =>
    have hq : key (better p q) = key p := key_better (h q (by simp))
    rw [List.foldl_cons, ih fun r hr => by rw [hq, h r (by simp [hr])], hq]

-- ---------------------------------------------------------------------------
-- The best of two sets together
-- ---------------------------------------------------------------------------

theorem fst_bestFrom (current : P) (differs : Bool) (ps : List P) :
    (bestFrom current differs ps).1 = ps.foldl better current := by
  induction ps generalizing current differs with
  | nil => rfl
  | cons p ps ih => exact ih _ _

theorem snd_bestFrom_iff (p : P) (ps : List P) :
    (bestFrom p false ps).2 = true ↔ ¬∀ q ∈ ps, key q = key p := by
  have h : (∃ q ∈ ps, key p ≠ key q) ↔ ¬∀ q ∈ ps, key q = key p := by
    simp [eq_comm]
  simpa [differs_bestFrom] using h

theorem bestOf_cons (p : P) (ps : List P) :
    bestOf (p :: ps) =
      if ∀ q ∈ ps, key q = key p then .ok (ps.foldl better p) else .error .ambiguous := by
  have hbest := fst_bestFrom p false ps
  have hdiffers := snd_bestFrom_iff p ps
  rw [bestOf]
  cases hpass : bestFrom p false ps with
  | mk best differs =>
    rw [hpass] at hbest hdiffers
    cases differs with
    | true => rw [if_neg (hdiffers.mp rfl)]
    | false => rw [if_pos (by simpa using hdiffers), ← hbest]

/-- The answer about two sets, one behind the other, from the answers about each. -/
def joinAnswers : Except SetFault P → Except SetFault P → Except SetFault P
  | .error .empty, r => r
  | r, .error .empty => r
  | .ok p, .ok q => if key p = key q then .ok (better p q) else .error .ambiguous
  | _, _ => .error .ambiguous

@[simp] theorem joinAnswers_empty (r : Except SetFault P) :
    joinAnswers r (.error .empty) = r := by
  match r with
  | .ok _ => rfl
  | .error .empty => rfl
  | .error .ambiguous => rfl

@[simp] theorem joinAnswers_ambiguous (r : Except SetFault P) :
    joinAnswers (.error .ambiguous) r = .error .ambiguous := by
  match r with
  | .ok _ => rfl
  | .error .empty => rfl
  | .error .ambiguous => rfl

/-- The packages of two sets have one key if those of each have one, and it is the same. -/
theorem forall_key_append {p q : P} {ps qs : List P} :
    (∀ r ∈ ps ++ q :: qs, key r = key p) ↔
      (∀ r ∈ ps, key r = key p) ∧ (∀ r ∈ qs, key r = key q) ∧ key p = key q := by
  constructor
  · intro h
    have hq : key q = key p := h q (by simp)
    exact ⟨fun r hr => h r (by simp [hr]), fun r hr => (h r (by simp [hr])).trans hq.symm, hq.symm⟩
  · rintro ⟨hps, hqs, hpq⟩ r hr
    rcases List.mem_append.mp hr with hr | hr
    · exact hps r hr
    · rcases List.mem_cons.mp hr with rfl | hr
      · exact hpq.symm
      · exact (hqs r hr).trans hpq.symm

theorem bestOf_append (ps qs : List P) :
    bestOf (ps ++ qs) = joinAnswers (bestOf ps) (bestOf qs) := by
  cases ps with
  | nil => rfl
  | cons p ps =>
    cases qs with
    | nil =>
      rw [List.append_nil]
      exact (joinAnswers_empty _).symm
    | cons q qs =>
      have hbest : (ps ++ q :: qs).foldl better p =
          better (ps.foldl better p) (qs.foldl better q) := by
        rw [List.foldl_append, List.foldl_cons, List.foldl_assoc]
      simp only [List.cons_append, bestOf_cons, hbest, forall_key_append]
      by_cases hps : ∀ r ∈ ps, key r = key p
      · rw [if_pos hps]
        by_cases hqs : ∀ r ∈ qs, key r = key q
        · rw [if_pos hqs, joinAnswers, key_foldl_better hps, key_foldl_better hqs]
          simp only [and_iff_right hps, and_iff_right hqs]
        · rw [if_neg hqs, if_neg fun h => hqs h.2.1]
          rfl
      · rw [if_neg hps, if_neg fun h => hps h.1, joinAnswers_ambiguous]

theorem Timeline.result_select_ofAtom (ps : List P) (a : Atom) :
    ((ofPackages ps).select (.ofAtom a)).result =
      (bestOf (ps.filter a.contains)).mapError (.set · .select) := by
  rw [select, Answer.mapError, filter_ofAtom_ofPackages]
  simp only [result_best, items_ofPackages, answerOf_ok]
  cases bestOf (ps.filter a.contains) <;> rfl

/-- What a stack selects with a repository on top follows from what the two select apart. -/
theorem RepositoryStack.select_push (stack : RepositoryStack) (r : Repository) (a : Atom) :
    ∃ below above : Except SetFault PackageRecord,
      (stack.timeline.select (.ofAtom a)).result = below.mapError (.set · .select) ∧
      (r.timeline.select (.ofAtom a)).result = above.mapError (.set · .select) ∧
      ((stack.push r).timeline.select (.ofAtom a)).result =
        (joinAnswers below above).mapError (.set · .select) := by
  refine ⟨_, _, Timeline.result_select_ofAtom _ a, Timeline.result_select_ofAtom _ a, ?_⟩
  rw [← bestOf_append, ← List.filter_append, ← packages_push]
  exact Timeline.result_select_ofAtom _ a

-- ---------------------------------------------------------------------------
-- Repositories without priorities
-- ---------------------------------------------------------------------------

theorem Package.compareTo_of_key_eq {p q : P} (h : key p = key q) :
    compareTo p q = (compare (identity p).version (identity q).version).then
      (compare (identity p).priority (identity q).priority) := by
  have hkey : compare (identity p).key (identity q).key = .eq := by
    rw [← key, ← key, h]
    exact Std.ReflCmp.compare_self
  rw [compareTo, Identity.compareIdentities, hkey]
  rfl

theorem Timeline.isMaximal_of_select {ps : List P} {a : Atom} {p : P}
    (h : ((ofPackages ps).select (.ofAtom a)).result = .ok p) :
    IsMaximal (ps.filter a.contains) p ∧ ∀ q ∈ ps.filter a.contains, key q = key p := by
  rw [result_select_ofAtom] at h
  rcases bestOf_cases (ps.filter a.contains) with ⟨-, hbest⟩ | ⟨-, hbest⟩ | ⟨hkeys, q, hlast, hbest⟩
  · rw [hbest] at h
    cases h
  · rw [hbest] at h
    cases h
  · rw [hbest] at h
    cases h
    obtain ⟨before, after, -, hmax, -⟩ := hlast
    exact ⟨hmax, fun q hq => hkeys q hq p hmax.1⟩

/-- The packages of a later repository have the greater priority. -/
def RepositoryStack.Ascending (stack : RepositoryStack) : Prop :=
  stack.repositories.Pairwise fun r s =>
    ∀ p ∈ r.packages, ∀ q ∈ s.packages, p.priority < q.priority

theorem Repository.priority_of_load {files : FileReader} {path : String} {priority : Int32}
    {r : Repository} (h : load files path priority = .ok r) : r.priority = priority := by
  rw [load] at h
  split at h
  · cases h
  · cases h
  · split at h
    · cases h
      rfl
    · cases h

theorem Source.priority_of_load {files : FileReader} {s : Source} {r : Repository}
    (h : s.load files = .ok r) : ∀ p ∈ r.packages, p.priority = s.priority := by
  obtain ⟨loaded, hload, hname⟩ := bind_ok.mp h
  have hfilled := Repository.filled_of_load hload
  have hpriority : loaded.priority = s.priority := Repository.priority_of_load hload
  cases hs : s.name with
  | none =>
    rw [hs] at hname
    cases hname
    exact fun p hp => (hfilled.priority p hp).trans hpriority
  | some name =>
    rw [hs] at hname
    cases hname
    exact fun p hp => ((hfilled.rename name).priority p hp).trans hpriority

namespace StackConfig

theorem pairwise_sources {config : StackConfig}
    (hpriority : ∀ entry ∈ config.entries, entry.priority = none)
    (hlength : config.entries.length < 2 ^ 31) :
    config.sources.Pairwise fun s t => s.priority < t.priority := by
  have hplaces : config.entries.zipIdx.Pairwise fun s t => s.2 < t.2 := by
    refine List.pairwise_map.mp ?_
    rw [List.zipIdx_map_snd]
    exact List.pairwise_lt_range'
  refine List.pairwise_map.mpr (hplaces.imp_of_mem ?_)
  rintro ⟨s, i⟩ ⟨t, j⟩ hs ht hlt
  have hj : j < 2 ^ 31 := Nat.lt_trans (by simpa using List.snd_lt_of_mem_zipIdx ht) hlength
  have hi : i < 2 ^ 31 := Nat.lt_trans hlt hj
  simp only [hpriority s (List.fst_mem_of_mem_zipIdx hs),
    hpriority t (List.fst_mem_of_mem_zipIdx ht), Option.getD_none]
  rw [Int32.lt_iff_toInt_lt, Int32.toInt_ofNat_of_lt hi, Int32.toInt_ofNat_of_lt hj]
  exact Int.ofNat_lt.mpr hlt

theorem ascending_of_buildStack {files : FileReader} {config : StackConfig}
    {stack : RepositoryStack} (hpriority : ∀ entry ∈ config.entries, entry.priority = none)
    (hlength : config.entries.length < 2 ^ 31) (h : config.buildStack files = .ok stack) :
    stack.Ascending := by
  rw [buildStack] at h
  split at h
  · cases h
  cases hload : config.sources.mapM (Source.load files) with
  | error e =>
    rw [hload] at h
    cases h
  | ok repositories =>
    rw [hload] at h
    cases h
    refine pairwise_of_mapM ?_ hload (pairwise_sources hpriority hlength)
    intro s t r r' hs ht hlt p hp q hq
    rwa [Source.priority_of_load hs p hp, Source.priority_of_load ht q hq]

/-- In a stack of entries without priorities what is selected has the greatest version, and no
repository behind its own has a package of that version to select. -/
theorem later_wins_ties {files : FileReader} {config : StackConfig} {stack : RepositoryStack}
    {a : Atom} {p : PackageRecord}
    (hpriority : ∀ entry ∈ config.entries, entry.priority = none)
    (hlength : config.entries.length < 2 ^ 31) (hstack : config.buildStack files = .ok stack)
    (hselect : (stack.timeline.select (.ofAtom a)).result = .ok p) :
    p ∈ stack.packages ∧ a.contains p = true ∧
      (∀ q ∈ stack.packages, a.contains q = true → (compare q.version p.version).isLE = true) ∧
      ∀ before r after, stack.repositories = before ++ r :: after → p ∈ r.packages →
        ∀ later ∈ after, ∀ q ∈ later.packages, a.contains q = true →
          q.version.same p.version = false := by
  obtain ⟨⟨hp, hmax⟩, hkeys⟩ := Timeline.isMaximal_of_select hselect
  have horder : ∀ q ∈ stack.packages, a.contains q = true →
      (compare q.version p.version).isLE = true ∧
        (compare q.version p.version = .eq → ¬p.priority < q.priority) := by
    intro q hq hmeets
    have hmem : q ∈ stack.packages.filter a.contains := List.mem_filter.mpr ⟨hq, hmeets⟩
    have hle := hmax q hmem
    rw [Package.compareTo_of_key_eq (hkeys q hmem), ne_eq, Ordering.then_eq_gt, not_or,
      not_and] at hle
    exact ⟨Ordering.isLE_iff_ne_gt.mpr hle.1, fun heq => Std.compare_eq_gt.not.mp (hle.2 heq)⟩
  rw [List.mem_filter] at hp
  refine ⟨hp.1, hp.2, fun q hq hmeets => (horder q hq hmeets).1, ?_⟩
  intro before r after hrepositories hown later hlater q hq hmeets
  have hascending : p.priority < q.priority := by
    have h := ascending_of_buildStack hpriority hlength hstack
    rw [RepositoryStack.Ascending, hrepositories] at h
    exact List.rel_of_pairwise_cons (List.pairwise_append.mp h).2.1 hlater p hown q hq
  have hmem : q ∈ stack.packages := by
    rw [RepositoryStack.packages, hrepositories]
    exact List.mem_flatMap.mpr ⟨later, by simp [hlater], hq⟩
  rw [Version.same, beq_eq_false_iff_ne]
  exact fun heq => (horder q hmem hmeets).2 heq hascending

/-- `1.0` below and `1.00` above are one version: that of the upper repository is selected, also
when the repository goes by another name. -/
theorem later_wins_ties_respelled :
    let config := ofEntries [⟨none, "lower", none⟩, ⟨some "y", "upper", none⟩]
    let a := Atom.ofKey ⟨some "a", "b"⟩
    ∃ files stack p, config.buildStack files = .ok stack ∧
      stack.packages.map (fun q => toString q.version) = ["1.0", "1.00"] ∧
      (stack.timeline.select (.ofAtom a)).result = .ok p ∧
      toString p.version = "1.00" ∧ p.repository = some "y" ∧
      p ∈ stack.packages ∧ a.contains p = true ∧
      (∀ q ∈ stack.packages, a.contains q = true → (compare q.version p.version).isLE = true) ∧
      ∀ before r after, stack.repositories = before ++ r :: after → p ∈ r.packages →
        ∀ later ∈ after, ∀ q ∈ later.packages, a.contains q = true →
          q.version.same p.version = false := by
  intro config a
  have hbuild : ∀ v w : Version, ∃ files, config.buildStack files =
      .ok ⟨[.ofIndex ⟨"x", [.bare ⟨some "a", "b"⟩ v]⟩ 0,
        (Repository.ofIndex ⟨"x", [.bare ⟨some "a", "b"⟩ w]⟩ 1).rename "y"]⟩ := by
    intro v w
    let index (version : Version) : RepositoryIndex := ⟨"x", [.bare ⟨some "a", "b"⟩ version]⟩
    have hkeys : ∀ version, ∀ r ∈ (index version).packages, r.key.WellFormed := by
      intro version r hr
      obtain rfl := List.mem_singleton.mp hr
      have hparse : PackageKey.parse "a/b" = .ok ⟨some "a", "b"⟩ := rfl
      exact PackageKey.wellFormed_of_parse hparse
    let files : FileReader := fun path =>
      if path = "lower" then .ok (index v).toJson.indented.toUTF8
      else .ok (index w).toJson.indented.toUTF8
    have hlower : Repository.load files "lower" 0 = .ok (.ofIndex (index v) 0) :=
      Repository.load_indented (if_pos rfl) rfl (hkeys v) 0
    have hupper : Repository.load files "upper" 1 = .ok (.ofIndex (index w) 1) :=
      Repository.load_indented (if_neg (by decide)) rfl (hkeys w) 1
    refine ⟨files, ?_⟩
    have hsources : config.sources = [⟨"lower", 0, none⟩, ⟨"upper", 1, some "y"⟩] := rfl
    rw [buildStack, if_neg (by decide), hsources, List.mapM_cons, Source.load, hlower,
      List.mapM_cons, Source.load, hupper]
    rfl
  obtain ⟨files, hstack⟩ := hbuild ⟨⟨['1'], rfl⟩, [⟨['0'], rfl⟩], none, [], 0⟩
    ⟨⟨['1'], rfl⟩, [⟨['0', '0'], rfl⟩], none, [], 0⟩
  let upper : PackageRecord :=
    { PackageRecord.bare ⟨some "a", "b"⟩ ⟨⟨['1'], rfl⟩, [⟨['0', '0'], rfl⟩], none, [], 0⟩ with
      repository := some "y"
      priority := 1 }
  exact ⟨files, _, upper, hstack, rfl, rfl, rfl, rfl,
    later_wins_ties (by simp [config, ofEntries]) (by decide) hstack rfl⟩

end StackConfig

end PackageAlgebra
