import Mathlib
import RefRules.Regex.Basic

/-!
# RefRules — the search of regular expressions

A search moves sets of positions through an expression. What it reaches are the ends of the matches
that begin in the set: a step for each part of an expression, and for a repetition as many rounds as a
text has positions, since matches go forward and rounds that stay where they are can be left out.

Main results:

* `Regex.Matches.le` — a match goes forward and ends within the text;
* `Regex.follows_reach` — the search reaches the ends of the matches and nothing else;
* `Regex.Equivalent` — two expressions match the same spans of every text;
* `Regex.isMatch_betweenAnchors_iff` — an expression between the anchors of a text matches exactly the
  texts that the expression matches as a whole.
-/

namespace RefRules.Regex

variable {text : Array Char} {step : Nat → Nat → Prop} {f : List Nat → List Nat}

/-! ## Steps -/

theorem steps_add {m n i j : Nat} :
    Steps step (m + n) i j ↔ ∃ k, Steps step m i k ∧ Steps step n k j := by
  induction m generalizing i with
  | zero => simp [Steps]
  | succ m ih =>
    rw [Nat.succ_add]
    constructor
    · rintro ⟨l, hFirst, hRest⟩
      obtain ⟨k, hMiddle, hLast⟩ := ih.mp hRest
      exact ⟨k, ⟨l, hFirst, hMiddle⟩, hLast⟩
    · rintro ⟨k, ⟨l, hFirst, hMiddle⟩, hLast⟩
      exact ⟨l, hFirst, ih.mpr ⟨k, hMiddle, hLast⟩⟩

/-- Steps keep what each step keeps. -/
theorem Steps.induction {P : Nat → Prop} (hStep : ∀ i j, P i → step i j → P j) {n i j : Nat}
    (h : Steps step n i j) (hi : P i) : P j := by
  induction n generalizing i with
  | zero => exact h ▸ hi
  | succ n ih =>
    obtain ⟨k, hFirst, hRest⟩ := h
    exact ih hRest (hStep i k hi hFirst)

/-- Of steps that go forward no more are needed than there are positions between the ends. -/
theorem exists_steps_le {limit : Nat} (hStep : ∀ i j, i ≤ limit → step i j → i ≤ j ∧ j ≤ limit)
    {n i j : Nat} (hi : i ≤ limit) (h : Steps step n i j) : ∃ m ≤ j - i, Steps step m i j := by
  induction n generalizing i with
  | zero =>
    cases h
    exact ⟨0, Nat.zero_le _, rfl⟩
  | succ n ih =>
    obtain ⟨k, hFirst, hRest⟩ := h
    obtain ⟨hForward, hk⟩ := hStep i k hi hFirst
    obtain ⟨m, hm, hSteps⟩ := ih hk hRest
    have hEnd : k ≤ j ∧ j ≤ limit := by
      refine Steps.induction (P := fun l => k ≤ l ∧ l ≤ limit) (fun l l' hl hNext => ?_) hRest
        ⟨Nat.le_refl k, hk⟩
      obtain ⟨hLater, hLimit⟩ := hStep l l' hl.2 hNext
      exact ⟨Nat.le_trans hl.1 hLater, hLimit⟩
    by_cases hStay : i = k
    · -- a step that stays where it is can be left out
      subst hStay
      exact ⟨m, hm, hSteps⟩
    · exact ⟨m + 1, by omega, k, hFirst, hSteps⟩

/-! ## Rounds of a search -/

theorem mem_merge {a b : List Nat} {i : Nat} : i ∈ merge a b ↔ i ∈ a ∨ i ∈ b := by
  rw [merge, List.mem_append, List.mem_filter, Bool.not_eq_true', List.contains_eq_mem,
    decide_eq_false_iff_not]
  tauto

/-- A round that adds nothing has found nothing that was not there. -/
theorem subset_of_length_merge_eq {a b : List Nat} (h : (merge a b).length = a.length) :
    ∀ i ∈ b, i ∈ a := by
  intro i hi
  rw [merge, List.length_append, Nat.add_eq_left, List.length_eq_zero_iff,
    List.filter_eq_nil_iff] at h
  simpa using h i hi

/-- What `f` finds from positions of a text are the positions one step further. -/
def Follows (step : Nat → Nat → Prop) (limit : Nat) (f : List Nat → List Nat) : Prop :=
  ∀ s, (∀ i ∈ s, i ≤ limit) → ∀ j, j ∈ f s ↔ ∃ i ∈ s, step i j

/-- Steps stay within the positions of a text and go forward. -/
def GoesForward (step : Nat → Nat → Prop) (limit : Nat) : Prop :=
  ∀ i j, i ≤ limit → step i j → i ≤ j ∧ j ≤ limit

variable {limit : Nat}

theorem Follows.bounded (hFollows : Follows step limit f) (hForward : GoesForward step limit)
    {s : List Nat} (hs : ∀ i ∈ s, i ≤ limit) : ∀ j ∈ f s, j ≤ limit := by
  intro j hj
  obtain ⟨i, hi, hStep⟩ := (hFollows s hs j).mp hj
  exact (hForward i j (hs i hi) hStep).2

/-- Where one step leads back into a set, any number of steps does. -/
theorem Follows.steps_closed (hFollows : Follows step limit f) {s : List Nat}
    (hs : ∀ i ∈ s, i ≤ limit) (hClosed : ∀ j ∈ f s, j ∈ s) {n i j : Nat} (hi : i ∈ s)
    (h : Steps step n i j) : j ∈ s :=
  Steps.induction (P := (· ∈ s)) (fun k l hk hStep => hClosed l ((hFollows s hs l).mpr ⟨k, hk, hStep⟩))
    h hi

/-- **Rounds.** After `n` rounds the search is exactly `n` steps further. -/
theorem mem_iterate_iff (hFollows : Follows step limit f) (hForward : GoesForward step limit)
    (n : Nat) {s : List Nat} (hs : ∀ i ∈ s, i ≤ limit) {j : Nat} :
    j ∈ iterate f n s ↔ ∃ i ∈ s, Steps step n i j := by
  induction n generalizing s with
  | zero => simp [iterate, Steps]
  | succ n ih =>
    rw [iterate]
    have hNext : (∃ i ∈ s, Steps step (n + 1) i j) ↔ ∃ k ∈ f s, Steps step n k j := by
      constructor
      · rintro ⟨i, hi, k, hFirst, hRest⟩
        exact ⟨k, (hFollows s hs k).mpr ⟨i, hi, hFirst⟩, hRest⟩
      · rintro ⟨k, hk, hRest⟩
        obtain ⟨i, hi, hFirst⟩ := (hFollows s hs k).mp hk
        exact ⟨i, hi, k, hFirst, hRest⟩
    -- one round from `s`, and `n` rounds from what it has found
    rw [hNext, ← ih (hFollows.bounded hForward hs)]
    by_cases hFixed : f s = s
    · -- further rounds leave a fixed point as it is
      rw [if_pos hFixed, hFixed]
      have hStays : ∀ m, iterate f m s = s := by
        intro m
        induction m with
        | zero => rfl
        | succ m _ => rw [iterate, if_pos hFixed]
      rw [hStays]
    · rw [if_neg hFixed]

/-- **Closure.** Growing for `n` rounds reaches what at most `n` steps reach. -/
theorem mem_grow_iff (hFollows : Follows step limit f) (hForward : GoesForward step limit)
    (n : Nat) {s : List Nat} (hs : ∀ i ∈ s, i ≤ limit) {j : Nat} :
    j ∈ grow f n s ↔ ∃ m ≤ n, ∃ i ∈ s, Steps step m i j := by
  induction n generalizing s with
  | zero => simp [grow, Steps]
  | succ n ih =>
    rw [grow]
    by_cases hFull : (merge s (f s)).length = s.length
    · -- nothing new: the set is closed
      rw [if_pos hFull]
      constructor
      · exact fun hj => ⟨0, Nat.zero_le _, j, hj, rfl⟩
      · rintro ⟨m, -, i, hi, hSteps⟩
        exact hFollows.steps_closed hs (subset_of_length_merge_eq hFull) hi hSteps
    · have hBounded : ∀ i ∈ merge s (f s), i ≤ limit := by
        intro i hi
        exact (mem_merge.mp hi).elim (hs i) (hFollows.bounded hForward hs i)
      rw [if_neg hFull, ih hBounded]
      -- what a later round begins with was in the set, or is one step away from it
      constructor
      · rintro ⟨m, hm, k, hk, hSteps⟩
        rcases mem_merge.mp hk with hk | hk
        · exact ⟨m, Nat.le_succ_of_le hm, k, hk, hSteps⟩
        · obtain ⟨i, hi, hFirst⟩ := (hFollows s hs k).mp hk
          exact ⟨m + 1, Nat.succ_le_succ hm, i, hi, k, hFirst, hSteps⟩
      · rintro ⟨m, hm, i, hi, hSteps⟩
        cases m with
        | zero => exact ⟨0, Nat.zero_le _, i, mem_merge.mpr (.inl hi), hSteps⟩
        | succ m =>
          obtain ⟨k, hFirst, hRest⟩ := hSteps
          exact ⟨m, Nat.le_of_succ_le_succ hm, k,
            mem_merge.mpr (.inr ((hFollows s hs k).mpr ⟨i, hi, hFirst⟩)), hRest⟩

/-- Rounds that follow at once and a growth after them reach what as many steps reach, and as many more
as the growth allows. -/
theorem mem_grow_iterate_iff (hFollows : Follows step limit f) (hForward : GoesForward step limit)
    (least more : Nat) {s : List Nat} (hs : ∀ i ∈ s, i ≤ limit) {j : Nat} :
    j ∈ grow f more (iterate f least s) ↔
      ∃ i ∈ s, ∃ n, least ≤ n ∧ n ≤ least + more ∧ Steps step n i j := by
  have hRounds {k : Nat} : k ∈ iterate f least s ↔ ∃ i ∈ s, Steps step least i k :=
    mem_iterate_iff hFollows hForward least hs
  have hBounded : ∀ k ∈ iterate f least s, k ≤ limit := by
    intro k hk
    obtain ⟨i, hi, hSteps⟩ := hRounds.mp hk
    exact Steps.induction (P := (· ≤ limit)) (fun a b ha hNext => (hForward a b ha hNext).2) hSteps
      (hs i hi)
  rw [mem_grow_iff hFollows hForward more hBounded]
  constructor
  · rintro ⟨m, hm, k, hk, hLater⟩
    obtain ⟨i, hi, hFirst⟩ := hRounds.mp hk
    exact ⟨i, hi, least + m, Nat.le_add_right least m, Nat.add_le_add_left hm least,
      steps_add.mpr ⟨k, hFirst, hLater⟩⟩
  · rintro ⟨i, hi, n, hLeast, hMost, hSteps⟩
    obtain ⟨m, rfl⟩ := Nat.exists_eq_add_of_le hLeast
    obtain ⟨k, hFirst, hLater⟩ := steps_add.mp hSteps
    exact ⟨m, Nat.le_of_add_le_add_left hMost, k, hRounds.mpr ⟨i, hi, hFirst⟩, hLater⟩

/-! ## Expressions -/

/-- A match goes forward and ends within the text. -/
theorem Matches.le {r : Regex} {i j : Nat} (h : Matches text r i j) (hi : i ≤ text.size) :
    i ≤ j ∧ j ≤ text.size := by
  induction r generalizing i j with
  | empty => exact h ▸ ⟨Nat.le_refl i, hi⟩
  | one cls =>
    obtain ⟨rfl, c, hChar, -⟩ := h
    exact ⟨Nat.le_succ i, (Array.getElem?_eq_some_iff.mp hChar).1⟩
  | look assertion => exact h.1 ▸ ⟨Nat.le_refl i, hi⟩
  | seq r s ihr ihs =>
    obtain ⟨k, hFirst, hSecond⟩ := h
    obtain ⟨hik, hk⟩ := ihr hFirst hi
    obtain ⟨hkj, hj⟩ := ihs hSecond hk
    exact ⟨Nat.le_trans hik hkj, hj⟩
  | alt r s ihr ihs => exact h.elim (ihr · hi) (ihs · hi)
  | repeated r min max ih =>
    obtain ⟨n, -, -, hSteps⟩ := h
    refine Steps.induction (P := fun k => i ≤ k ∧ k ≤ text.size) (fun k l hk hNext => ?_) hSteps
      ⟨Nat.le_refl i, hi⟩
    obtain ⟨hLater, hLimit⟩ := ih hNext hk.2
    exact ⟨Nat.le_trans hk.1 hLater, hLimit⟩

theorem goesForward_matches (text : Array Char) (r : Regex) :
    GoesForward (Matches text r) text.size :=
  fun _ _ hi hMatch => hMatch.le hi

/-- Repetitions without a greatest number need no more rounds behind the least number of them than the
text has positions. -/
theorem exists_steps_of_least_le {r : Regex} {least n i j : Nat} (hi : i ≤ text.size)
    (hLeast : least ≤ n) (h : Steps (Matches text r) n i j) :
    ∃ m, least ≤ m ∧ m ≤ least + (text.size + 1) ∧ Steps (Matches text r) m i j := by
  obtain ⟨later, rfl⟩ := Nat.exists_eq_add_of_le hLeast
  obtain ⟨k, hFirst, hLater⟩ := steps_add.mp h
  have hBounded {m i j : Nat} (hi : i ≤ text.size) (hSteps : Steps (Matches text r) m i j) :
      j ≤ text.size :=
    Steps.induction (P := (· ≤ text.size)) (fun k l hk hNext => (hNext.le hk).2) hSteps hi
  have hk := hBounded hi hFirst
  have hj := hBounded hk hLater
  obtain ⟨m, hm, hSteps⟩ := exists_steps_le (goesForward_matches text r) hk hLater
  exact ⟨least + m, Nat.le_add_right least m, by omega, steps_add.mpr ⟨k, hFirst, hSteps⟩⟩

/-- **The search is sound and complete.** From positions of a text it reaches the ends of the matches
that begin there, and nothing else. -/
theorem follows_reach (text : Array Char) (r : Regex) :
    Follows (Matches text r) text.size (reach text r) := by
  induction r with
  | empty =>
    intro s _ j
    simp [reach, Matches]
  | one cls =>
    intro s _ j
    simp only [reach, Matches, List.mem_map, List.mem_filter, Option.any_eq_true]
    constructor
    · rintro ⟨i, ⟨hi, c, hChar, hClass⟩, rfl⟩
      exact ⟨i, hi, rfl, c, hChar, hClass⟩
    · rintro ⟨i, hi, rfl, c, hChar, hClass⟩
      exact ⟨i, ⟨hi, c, hChar, hClass⟩, rfl⟩
  | look assertion =>
    intro s _ j
    simp only [reach, Matches, List.mem_filter]
    constructor
    · exact fun ⟨hj, hHolds⟩ => ⟨j, hj, rfl, hHolds⟩
    · rintro ⟨i, hi, rfl, hHolds⟩
      exact ⟨hi, hHolds⟩
  | seq r q ihr ihq =>
    intro s hs j
    have hMiddle := ihr.bounded (goesForward_matches text r) hs
    rw [reach, ihq _ hMiddle]
    constructor
    · rintro ⟨k, hk, hSecond⟩
      obtain ⟨i, hi, hFirst⟩ := (ihr s hs k).mp hk
      exact ⟨i, hi, k, hFirst, hSecond⟩
    · rintro ⟨i, hi, k, hFirst, hSecond⟩
      exact ⟨k, (ihr s hs k).mpr ⟨i, hi, hFirst⟩, hSecond⟩
  | alt r q ihr ihq =>
    intro s hs j
    rw [reach, mem_merge, ihr s hs, ihq s hs]
    simp only [Matches, ← exists_or, ← and_or_left]
  | repeated r min max ih =>
    intro s hs j
    have hForward := goesForward_matches text r
    cases max with
    | none =>
      rw [reach.eq_def, mem_grow_iterate_iff ih hForward min _ hs]
      constructor
      · rintro ⟨i, hi, n, hLeast, -, hSteps⟩
        exact ⟨i, hi, n, hLeast, nofun, hSteps⟩
      · -- however many rounds there are, as many as there are positions do the same
        rintro ⟨i, hi, n, hLeast, -, hSteps⟩
        exact ⟨i, hi, exists_steps_of_least_le (hs i hi) hLeast hSteps⟩
    | some greatest =>
      have hReach : reach text (repeated r min (some greatest)) s =
          if greatest < min then []
          else grow (reach text r) (greatest - min) (iterate (reach text r) min s) := rfl
      rw [hReach]
      split
      · -- no number of rounds is between the counts
        next hNone =>
        refine iff_of_false List.not_mem_nil ?_
        rintro ⟨i, -, n, hLeast, hMax, -⟩
        have hMost := hMax greatest rfl
        omega
      · next hCounts =>
        have hMost : min + (greatest - min) = greatest := by omega
        rw [mem_grow_iterate_iff ih hForward min _ hs, hMost]
        simp only [Matches, Option.some.injEq, forall_eq']

/-! ## Whole texts -/

/-- The expression matches the text as a whole. -/
def MatchesAll (r : Regex) (text : String) : Prop :=
  Matches text.toList.toArray r 0 text.toList.length

theorem isMatch_iff (r : Regex) (text : String) :
    r.isMatch text = true ↔
      ∃ i ≤ text.toList.length, ∃ j, Matches text.toList.toArray r i j := by
  have hPositions : ∀ i ∈ List.range (text.toList.toArray.size + 1), i ≤ text.toList.toArray.size :=
    fun i hi => Nat.le_of_lt_succ (List.mem_range.mp hi)
  have hReach {j : Nat} := follows_reach text.toList.toArray r _ hPositions j
  simp only [List.mem_range, Nat.lt_succ_iff, List.size_toArray] at hReach
  unfold isMatch
  dsimp only
  rw [Bool.not_eq_true', List.isEmpty_eq_false_iff_exists_mem]
  constructor
  · rintro ⟨j, hj⟩
    obtain ⟨i, hi, hMatch⟩ := hReach.mp hj
    exact ⟨i, hi, j, hMatch⟩
  · rintro ⟨i, hi, j, hMatch⟩
    exact ⟨j, hReach.mpr ⟨i, hi, hMatch⟩⟩

/-- The expressions match the same spans of every text. -/
def Equivalent (r s : Regex) : Prop :=
  ∀ (text : Array Char) (i j : Nat), i ≤ text.size → (Matches text r i j ↔ Matches text s i j)

theorem Equivalent.refl (r : Regex) : r.Equivalent r :=
  fun _ _ _ _ => Iff.rfl

theorem Equivalent.trans {r s t : Regex} (hr : r.Equivalent s) (hs : s.Equivalent t) :
    r.Equivalent t :=
  fun text i j hi => (hr text i j hi).trans (hs text i j hi)

theorem Equivalent.seq {r r' s s' : Regex} (hr : r.Equivalent r') (hs : s.Equivalent s') :
    (Regex.seq r s).Equivalent (Regex.seq r' s') := by
  intro text i j hi
  constructor
  · rintro ⟨k, hFirst, hSecond⟩
    exact ⟨k, (hr text i k hi).mp hFirst, (hs text k j (hFirst.le hi).2).mp hSecond⟩
  · rintro ⟨k, hFirst, hSecond⟩
    exact ⟨k, (hr text i k hi).mpr hFirst, (hs text k j (hFirst.le hi).2).mpr hSecond⟩

theorem equivalent_seq_assoc (r s t : Regex) :
    (Regex.seq r (.seq s t)).Equivalent (.seq (.seq r s) t) := by
  intro text i j _
  constructor
  · rintro ⟨k, hFirst, l, hSecond, hThird⟩
    exact ⟨l, ⟨k, hFirst, hSecond⟩, hThird⟩
  · rintro ⟨l, ⟨k, hFirst, hSecond⟩, hThird⟩
    exact ⟨k, hFirst, l, hSecond, hThird⟩

theorem Equivalent.isMatch_iff {r s : Regex} (h : r.Equivalent s) (text : String) :
    r.isMatch text = true ↔ s.isMatch text = true := by
  rw [Regex.isMatch_iff, Regex.isMatch_iff]
  exact exists_congr fun i => and_congr_right fun hi => exists_congr fun j => h _ i j hi

/-- The expression between the start and the end of the text. -/
def betweenAnchors (r : Regex) : Regex :=
  .seq (.seq (.look .textStart) r) (.look .textEnd)

theorem holds_textStart_iff {i : Nat} (hi : i ≤ text.size) :
    Look.textStart.holds text i = true ↔ i = 0 := by
  simp only [Look.holds, Look.before?, Option.isNone_iff_eq_none]
  by_cases hZero : i = 0
  · simp [hZero]
  · simp only [hZero, if_false, iff_false, Array.getElem?_eq_none_iff]
    omega

theorem holds_textEnd_iff {i : Nat} (hi : i ≤ text.size) :
    Look.textEnd.holds text i = true ↔ i = text.size := by
  simp only [Look.holds, Option.isNone_iff_eq_none, Array.getElem?_eq_none_iff]
  omega

/-- Between anchors an expression matches the texts that it matches as a whole. -/
theorem isMatch_betweenAnchors_iff (r : Regex) (text : String) :
    r.betweenAnchors.isMatch text = true ↔ r.MatchesAll text := by
  rw [isMatch_iff]
  constructor
  · rintro ⟨i, hi, j, l, ⟨k, ⟨rfl, hStart⟩, hMatch⟩, rfl, hEnd⟩
    obtain rfl := (holds_textStart_iff hi).mp hStart
    obtain rfl := (holds_textEnd_iff (hMatch.le hi).2).mp hEnd
    exact hMatch
  · intro hAll
    have hFirst : Look.textStart.holds text.toList.toArray 0 = true :=
      (holds_textStart_iff (Nat.zero_le _)).mpr rfl
    have hLast : Look.textEnd.holds text.toList.toArray text.toList.length = true :=
      (holds_textEnd_iff (Nat.le_refl _)).mpr rfl
    exact ⟨0, Nat.zero_le _, _, _, ⟨0, ⟨rfl, hFirst⟩, hAll⟩, rfl, hLast⟩

end RefRules.Regex
