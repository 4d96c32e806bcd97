import Mathlib
import RefRules.Ruleset.Matcher

/-!
# RefRules — the rules about a type

A `Matcher` answers from two indexes: a bucket of exact names for each assembly, made when a type of
the assembly is first asked for, and the patterns' answers, made beforehand. The answers are those
of asking every rule in turn, whatever has been asked before.

Main results:

* `Matcher.rulesFor_spec` — one answer, and the matcher stays faithful to its rules;
* `Matcher.rulesForAll_spec` — a row of answers;
* `Matcher.Caches.rulesForAll` — which assemblies have a bucket after a row of questions;
* `Matcher.rulesForAll_ofRules` — the answers of a new matcher, and how many buckets it has made.
-/

namespace RefRules

/-- The rule's spec accepts type `t`. -/
def Rule.isAbout (r : Rule) (L : Layout) (t : Nat) : Bool :=
  r.spec.accepts (L.assembly t) (L.name t)

namespace Matcher

/-- The indices of the rules about type `t`, in the order of the rules. -/
def indicesAbout (L : Layout) (rules : List Rule) (t : Nat) : List Nat :=
  ((indexed rules).filter fun r => r.1.isAbout L t).map (·.2)

/-! ## The two indexes -/

/-- Under the key of an assembly, a rule stands with its exact name exactly when it is no pattern and
accepts the type of that name. -/
theorem exactName?_any (assembly name : String) (r : Rule) :
    (exactName? (normalizeAssembly assembly) r).any (· == name) =
      (!r.spec.isRegex && r.spec.accepts assembly name) := by
  cases hName : r.spec.name with
  | regex pattern compiled => simp [exactName?, TypeSpec.isRegex, hName]
  | exact expected =>
    cases hAssembly : r.spec.assembly with
    | none =>
      simp [exactName?, TypeSpec.isRegex, TypeSpec.accepts, TypeSpec.acceptsAssembly,
        TypeSpec.acceptsName, hName, hAssembly]
    | some key =>
      by_cases hKey : key = normalizeAssembly assembly <;>
        simp [exactName?, TypeSpec.isRegex, TypeSpec.accepts, TypeSpec.acceptsAssembly,
          TypeSpec.acceptsName, hName, hAssembly, hKey]

/-- Looking a key up among tagged items keeps the items whose tag is the key. -/
theorem filter_filterMap_tag {α : Type} (tag? : α → Option String) (name : String)
    (items : List (α × Nat)) :
    ((items.filterMap fun r => (tag? r.1).map fun tag => (tag, r.2)).filter
        fun entry => entry.1 == name).map (·.2) =
      (items.filter fun r => (tag? r.1).any (· == name)).map (·.2) := by
  induction items with
  | nil => rfl
  | cons r items ih =>
    cases hTag : tag? r.1 with
    | none => simpa [hTag] using ih
    | some tag =>
      by_cases hName : tag = name
      · simpa [hTag, hName] using ih
      · simpa [hTag, hName] using ih

/-- What the bucket of an assembly says about a name. -/
theorem bucketOf_filter (rules : List Rule) (assembly name : String) :
    ((bucketOf rules (normalizeAssembly assembly)).filter fun entry => entry.1 == name).map (·.2) =
      ((indexed rules).filter fun r =>
        !r.1.spec.isRegex && r.1.spec.accepts assembly name).map (·.2) := by
  rw [bucketOf, filter_filterMap_tag]
  simp only [exactName?_any]

theorem patternsFor_eq (L : Layout) (rules : List Rule) (t : Nat) :
    patternsFor L rules t =
      ((indexed rules).filter fun r => r.1.spec.isRegex && r.1.isAbout L t).map (·.2) := by
  rw [patternsFor, patternRules, List.filter_filter]
  simp only [Rule.isAbout, Bool.and_comm]

/-- The indices of kept rules ascend. -/
theorem indexed_filter_sorted (rules : List Rule) (keep : Rule × Nat → Bool) :
    (((indexed rules).filter keep).map (·.2)).Pairwise (· ≤ ·) := by
  have hAll : ((indexed rules).map (·.2)).Pairwise (· ≤ ·) := by
    rw [indexed, List.zipIdx_map_snd]
    exact List.pairwise_le_range'
  exact hAll.sublist (List.filter_sublist.map _)

/-- Putting the answers of both indexes in order gives the rules about the type in theirs. -/
theorem merge_indexes (L : Layout) (rules : List Rule) (t : Nat) :
    (((bucketOf rules (normalizeAssembly (L.assembly t))).filter
        fun entry => entry.1 == L.name t).map (·.2) ++ patternsFor L rules t).mergeSort (· ≤ ·) =
      indicesAbout L rules t := by
  have hSplit :
      ((bucketOf rules (normalizeAssembly (L.assembly t))).filter
        fun entry => entry.1 == L.name t).map (·.2) ++ patternsFor L rules t =
      ((((indexed rules).filter fun r => r.1.isAbout L t).filter fun r => !r.1.spec.isRegex) ++
        (((indexed rules).filter fun r => r.1.isAbout L t).filter fun r => !!r.1.spec.isRegex)).map
          (·.2) := by
    rw [bucketOf_filter, patternsFor_eq, List.map_append, List.filter_filter, List.filter_filter]
    simp only [Rule.isAbout, Bool.not_not]
  rw [hSplit]
  -- both sides ascend and hold the same indices
  refine List.Perm.eq_of_pairwise ?_ ?_ (indexed_filter_sorted rules _) ?_
  · intro a b _ _ hab hba
    exact Nat.le_antisymm hab hba
  · refine (List.pairwise_mergeSort ?_ ?_ _).imp fun hab => of_decide_eq_true hab
    · intro a b c hab hbc
      simp only [decide_eq_true_eq] at *
      omega
    · intro a b
      simp only [Bool.or_eq_true, decide_eq_true_eq]
      omega
  · exact (List.mergeSort_perm _ _).trans ((List.filter_append_perm _ _).map _)

/-! ## Faithful matchers -/

/-- Every bucket made so far, and every pattern's answer, is that of the rules. -/
structure Faithful (L : Layout) (rules : List Rule) (m : Matcher) : Prop where
  rules_eq : m.rules = rules
  patterns_eq : m.patternMatches = (List.range L.count).map (patternsFor L rules)
  buckets_eq : ∀ key b, m.buckets.lookup key = some b → b = bucketOf rules key

theorem faithful_ofRules (L : Layout) (rules : List Rule) : Faithful L rules (ofRules L rules) where
  rules_eq := rfl
  patterns_eq := rfl
  buckets_eq := by simp [ofRules]

/-- A bucket is that of its assembly, whether it was there or is made now. -/
theorem bucket_spec {L : Layout} {rules : List Rule} {m : Matcher} (h : Faithful L rules m)
    (assembly : String) :
    (m.bucket assembly).1 = bucketOf rules (normalizeAssembly assembly) ∧
      Faithful L rules (m.bucket assembly).2 := by
  cases hFound : m.buckets.lookup (normalizeAssembly assembly) with
  | some b =>
    simp only [bucket, hFound]
    exact ⟨h.buckets_eq _ _ hFound, h⟩
  | none =>
    simp only [bucket, hFound]
    refine ⟨by rw [h.rules_eq], h.rules_eq, h.patterns_eq, ?_⟩
    intro key b hb
    rw [List.lookup_append] at hb
    cases hOld : m.buckets.lookup key with
    | some old =>
      -- a bucket from before
      rw [hOld, Option.some_or, Option.some.injEq] at hb
      exact hb ▸ h.buckets_eq _ _ hOld
    | none =>
      -- the bucket that was made just now is under its own key only
      rw [hOld, Option.none_or] at hb
      by_cases hKey : key = normalizeAssembly assembly
      · subst hKey
        rw [List.lookup_cons_self, Option.some.injEq, h.rules_eq] at hb
        exact hb.symm
      · have hNe : (key == normalizeAssembly assembly) = false := beq_false_of_ne hKey
        simp [List.lookup, hNe] at hb

/-- One answer: the rules about the type, in their order. -/
theorem rulesFor_spec {L : Layout} {rules : List Rule} {m : Matcher} (h : Faithful L rules m)
    {t : Nat} (ht : t < L.count) :
    (m.rulesFor L t).1 = indicesAbout L rules t ∧ Faithful L rules (m.rulesFor L t).2 := by
  obtain ⟨hBucket, hKept⟩ := bucket_spec h (L.assembly t)
  have hPatterns : ((m.bucket (L.assembly t)).2.patternMatches[t]?).getD [] =
      patternsFor L rules t := by
    rw [hKept.patterns_eq]
    simp [ht]
  have hMerge := merge_indexes L rules t
  simp only [rulesFor, hPatterns, hBucket]
  cases hAnswer : patternsFor L rules t with
  | nil =>
    refine ⟨?_, hKept⟩
    -- without patterns the bucket's answer is in order already
    rw [hAnswer, List.append_nil, List.mergeSort_of_pairwise] at hMerge
    · exact hMerge
    · rw [bucketOf_filter]
      exact (indexed_filter_sorted rules _).imp fun hab => decide_eq_true hab
  | cons i rest =>
    rw [hAnswer] at hMerge
    exact ⟨hMerge, hKept⟩

/-- A row of answers, whatever was asked before. -/
theorem rulesForAll_spec {L : Layout} {rules : List Rule} {m : Matcher} (h : Faithful L rules m)
    {types : List Nat} (hTypes : ∀ t ∈ types, t < L.count) :
    (m.rulesForAll L types).1 = types.map (indicesAbout L rules) := by
  induction types generalizing m with
  | nil => rfl
  | cons t types ih =>
    obtain ⟨hAnswer, hKept⟩ := rulesFor_spec h (hTypes t (List.mem_cons_self ..))
    have hRest := ih hKept fun u hu => hTypes u (List.mem_cons_of_mem _ hu)
    simp only [rulesForAll, List.map_cons, hAnswer, hRest]

/-! ## Cached assemblies -/

/-- The normalized assemblies that have a bucket. -/
def cached (m : Matcher) : List String :=
  m.buckets.map (·.1)

/-- One bucket has been made for each of the assemblies, and none for others. -/
structure Caches (m : Matcher) (assemblies : Finset String) : Prop where
  nodup : m.cached.Nodup
  toFinset_eq : m.cached.toFinset = assemblies

theorem caches_ofRules (L : Layout) (rules : List Rule) : (ofRules L rules).Caches ∅ where
  nodup := List.nodup_nil
  toFinset_eq := rfl

theorem mem_cached_iff {m : Matcher} {key : String} :
    key ∈ m.cached ↔ (m.buckets.lookup key).isSome = true := by
  simp [cached, List.lookup_isSome_iff]

/-- Asking for a bucket makes one for its assembly, unless it is there already. -/
theorem Caches.bucket {m : Matcher} {assemblies : Finset String} (h : m.Caches assemblies)
    (assembly : String) :
    (m.bucket assembly).2.Caches (insert (normalizeAssembly assembly) assemblies) := by
  cases hFound : m.buckets.lookup (normalizeAssembly assembly) with
  | some b =>
    have hOld : normalizeAssembly assembly ∈ m.cached := by
      rw [mem_cached_iff, hFound]
      rfl
    have hKnown : normalizeAssembly assembly ∈ assemblies := by
      rw [← h.toFinset_eq]
      exact List.mem_toFinset.mpr hOld
    simp only [Matcher.bucket, hFound]
    rw [Finset.insert_eq_of_mem hKnown]
    exact h
  | none =>
    have hNew : normalizeAssembly assembly ∉ m.cached := by
      rw [mem_cached_iff, hFound]
      exact Bool.false_ne_true
    -- the new bucket stands behind the others, under a key that none of them has
    have hKeys : (m.bucket assembly).2.cached = m.cached ++ [normalizeAssembly assembly] := by
      simp [Matcher.bucket, hFound, cached]
    constructor
    · rw [hKeys, ← List.concat_eq_append]
      exact h.nodup.concat hNew
    · rw [hKeys, List.toFinset_append, h.toFinset_eq, Finset.union_comm]
      rfl

/-- A question about a type changes nothing but the buckets. -/
theorem rulesFor_snd (m : Matcher) (L : Layout) (t : Nat) :
    (m.rulesFor L t).2 = (m.bucket (L.assembly t)).2 := by
  simp only [rulesFor]
  split <;> rfl

/-- After a row of questions there are buckets for the assemblies of the types asked about, besides
those from before. -/
theorem Caches.rulesForAll {m : Matcher} {assemblies : Finset String} (h : m.Caches assemblies)
    (L : Layout) (types : List Nat) :
    (m.rulesForAll L types).2.Caches
      ((types.map fun t => normalizeAssembly (L.assembly t)).toFinset ∪ assemblies) := by
  induction types generalizing m assemblies with
  | nil =>
    rw [List.map_nil, List.toFinset_nil, Finset.empty_union]
    exact h
  | cons t types ih =>
    have hFirst : (m.rulesFor L t).2.Caches
        (insert (normalizeAssembly (L.assembly t)) assemblies) := by
      rw [rulesFor_snd]
      exact h.bucket (L.assembly t)
    have hRest := ih hFirst
    rw [List.map_cons, List.toFinset_cons, Finset.insert_union, ← Finset.union_insert]
    exact hRest

/-- The rules about a type, found by asking each index from the first to the last. -/
theorem indicesAbout_eq_filter_range (L : Layout) (rules : List Rule) (t : Nat) :
    indicesAbout L rules t =
      (List.range rules.length).filter fun i => (rules[i]?).any fun r => r.isAbout L t := by
  have hAll : (indexed rules).map (·.2) = List.range rules.length := by
    rw [indexed, List.zipIdx_map_snd, List.range_eq_range']
  rw [← hAll, List.filter_map, indicesAbout]
  congr 1
  apply List.filter_congr
  intro r hr
  have hFound : rules[r.2]? = some r.1 := List.mem_zipIdx_iff_getElem?.mp hr
  simp [hFound]

/-- **A matcher answers as its rules do.** Whatever is asked, in any order and again, each answer
lists the indices of all rules whose specs accept the type, from the first to the last; and there is
one bucket for each normalized assembly of the types asked about. -/
theorem rulesForAll_ofRules (L : Layout) (rules : List Rule) {types : List Nat}
    (hTypes : ∀ t ∈ types, t < L.count) :
    ((ofRules L rules).rulesForAll L types).1 =
        types.map (fun t => (List.range rules.length).filter fun i =>
          (rules[i]?).any fun r => r.spec.accepts (L.assembly t) (L.name t)) ∧
      ((ofRules L rules).rulesForAll L types).2.cachedAssemblies =
        (types.map fun t => normalizeAssembly (L.assembly t)).toFinset.card := by
  constructor
  · rw [rulesForAll_spec (faithful_ofRules L rules) hTypes]
    apply List.map_congr_left
    intro t _
    exact indicesAbout_eq_filter_range L rules t
  · have hCaches := (caches_ofRules L rules).rulesForAll L types
    rw [Finset.union_empty] at hCaches
    rw [← hCaches.toFinset_eq, List.toFinset_card_of_nodup hCaches.nodup, cached, List.length_map]
    rfl

/-- Players of two assemblies, and an enemy of the first under another spelling of its name. -/
def castLayout : Layout where
  wordSize := .eight
  objectHeader := 16
  arrayHeader := 24
  types :=
    [⟨"Game.dll", "Player", false, false, none, 32, [], none⟩,
      ⟨" game", "Enemy", false, false, none, 32, [], none⟩,
      ⟨"Engine", "Player", false, false, none, 32, [], none⟩]
  sound := by decide

/-- A whole name of any characters but line ends. -/
def anyName : Regex :=
  .seq (.look .textStart) (.seq (.repeated (.one (· != '\n')) 0 none) (.look .textEnd))

/-- A pattern for the game, a name in the game, and the same name everywhere. -/
def castRules : List Rule :=
  [⟨⟨"game:/.*/", some "game", .regex ".*" anyName⟩, .weak, ⟨[.field "a"]⟩, ⟨"m.rcl", 1⟩,
      anonymousGroup⟩,
    ⟨⟨"GAME.DLL:Player", some "game", .exact "Player"⟩, .owns 1 false, ⟨[.field "b"]⟩, ⟨"m.rcl", 2⟩,
      anonymousGroup⟩,
    ⟨⟨"Player", none, .exact "Player"⟩, .owns 1 false, ⟨[.field "c"]⟩, ⟨"m.rcl", 3⟩,
      anonymousGroup⟩]

/-- The game's player is asked about twice, with an enemy of the same assembly in between. -/
theorem rulesForAll_castRules :
    (∀ t ∈ [2, 0, 1, 0], t < castLayout.count) ∧
      ((ofRules castLayout castRules).rulesForAll castLayout [2, 0, 1, 0]).1 =
        [[2], [0, 1, 2], [0], [0, 1, 2]] ∧
      ((ofRules castLayout castRules).rulesForAll castLayout [2, 0, 1, 0]).2.cachedAssemblies = 2 := by
  have hTypes : ∀ t ∈ [2, 0, 1, 0], t < castLayout.count := by decide
  obtain ⟨hAnswers, hCached⟩ := rulesForAll_ofRules castLayout castRules hTypes
  have hAssemblies : ([2, 0, 1, 0].map fun t => normalizeAssembly (castLayout.assembly t)) =
      ["engine", "game", "game", "game"] := by decide +kernel
  refine ⟨hTypes, ?_, ?_⟩
  · rw [hAnswers]
    decide +kernel
  · rw [hCached, hAssemblies]
    rfl

end Matcher

end RefRules
