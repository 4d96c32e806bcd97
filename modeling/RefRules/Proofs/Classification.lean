import RefRules.Proofs.Matching
import RefRules.Proofs.Paths
import RefRules.Ruleset.Basic

/-!
# RefRules — how slots are classified

Binding goes through the types and through the rules about each, and merges what they say about a
field into one entry. This module says of every slot what comes out, in terms of the rules alone:
which rules classify it (`Rule.Classifies`), what each of them brings (`Rule.slotWeight`,
`Rule.slotMarks`), and which of them decides.

Main results:

* `Ruleset.lookup?_bind` — the entry of a slot merges what the rules about its type say, in their
  order;
* `Ruleset.bind_classifies` — a slot has an entry exactly when a rule classifies it; the first of the
  heaviest rules gives weight and location, all of them give marks;
* `Ruleset.IsBoundOn.untraced`, `Ruleset.IsBoundOn.anchor` — what every bound ruleset keeps: the mark
  of value fields, and selectors that begin at their slot.
-/

namespace RefRules

/-! ## Rules that classify a slot -/

/-- Kinds that hang on the pointer of a field. -/
def RuleKind.needsPointer : RuleKind → Bool
  | tag _ _ => true
  | fuseWith => true
  | _ => false

/-- The rule says something about field `f` of type `t`, once it is about the type. -/
inductive Rule.Classifies (r : Rule) (L : Layout) (t f : Nat) : Prop
  | pattern {pattern : String} (hPath : r.path.pattern? = some pattern)
      (hField : f < (L.fields t).length)
      (hName : FieldPath.matchesField pattern (L.fieldName t f) = true)
      (hKind : r.kind.needsPointer = false ∨ L.isValueField t f = false)
  | path {name : String} {hops : List Hop} (hPath : r.path.hops = .field name :: hops)
      (hMulti : hops ≠ []) (hField : L.IsFirstDeclared t name f)
      (hHops : r.kind.isDynamic = true ∨ ∃ fixed last,
        L.Leads (L.fieldType t f) hops fixed last ∧ L.isValue last = false)
      (hKind : r.kind.requiresSingleField = false)

/-- The weight that a rule gives to the slots it classifies: only a pattern of names gives one. -/
def Rule.slotWeight (r : Rule) : Int :=
  if r.path.isSingleField then
    match r.kind with
    | .owns weight _ => clampWeight weight
    | .weak => -1
    | _ => 0
  else 0

/-- The marks that a rule gives to the slots it classifies. -/
def Rule.slotMarks (r : Rule) : Marks :=
  match r.kind with
  | .owns _ _ | .weak => { weightAnchor := !r.path.isSingleField }
  | .external => { external := true }
  | .tag _ _ => { tagAnchor := true }
  | .tagIf _ true => { tagIfZero := true }
  | .tagIf _ false => { tagIfNonzero := true }
  | .fuseWith => { conditionAnchor := true }

/-- The mark of a field with a value type. -/
def Layout.valueMark (L : Layout) (t f : Nat) : Marks :=
  { untraced := L.isValueField t f }

/-! ## The entry of one rule -/

/-- All selectors that hang on a slot. -/
def SlotEntry.selectors (e : SlotEntry) : List Selector :=
  e.weights.map (·.selector) ++ e.tags.map (·.selector) ++ e.conditions.map (·.selector)

/-- What a rule says about field `f` of a type that it is about. -/
def Rule.entryAt? (r : Rule) (L : Layout) (t f : Nat) : Option SlotEntry :=
  match r.path.pattern? with
  | some pattern =>
    if f < (L.fields t).length && FieldPath.matchesField pattern (L.fieldName t f) then
      r.classify? L t f
    else none
  | none =>
    match r.bindPath L t with
    | .ok bound => if bound.1 = f then some bound.2 else none
    | .error _ => none

/-- The entry is that of rule `r` on field `f` of type `t`. -/
structure SlotEntry.IsOf (e : SlotEntry) (r : Rule) (L : Layout) (t f : Nat) : Prop where
  flags_eq : e.flags = ⟨r.slotMarks ∪ L.valueMark t f, r.slotWeight⟩
  location_eq : e.location = r.location
  anchor_eq : ∀ s ∈ e.selectors, s.anchor? = some (.field t f)

theorem markValue_eq (L : Layout) (t f : Nat) (flags : Flags) :
    markValue (L.isValueField t f) flags = ⟨flags.marks ∪ L.valueMark t f, flags.weight⟩ := by
  cases hValue : L.isValueField t f <;>
    simp [markValue, Layout.valueMark, hValue, Flags.combine, Flags.ofMarks, Flags.heavier,
      Union.union, Marks.union]

theorem FieldPath.pattern?_eq_some_iff {p : FieldPath} {pattern : String} :
    p.pattern? = some pattern ↔ p.hops = [.field pattern] := by
  unfold pattern?
  split <;> simp_all

/-- A rule with a pattern leaves a field out only when it needs a pointer and the field has none. -/
theorem Rule.classify?_isSome (r : Rule) (L : Layout) (t f : Nat) :
    (r.classify? L t f).isSome = (!r.kind.needsPointer || !L.isValueField t f) := by
  unfold classify? RuleKind.needsPointer
  cases r.kind with
  | tagIf tags zero => cases zero <;> rfl
  | tag tags dynamic => cases L.isValueField t f <;> rfl
  | fuseWith => cases L.isValueField t f <;> rfl
  | _ => rfl

theorem Rule.isOf_of_classify? {r : Rule} {L : Layout} {t f : Nat} {e : SlotEntry}
    (hSingle : r.path.isSingleField = true) (h : r.classify? L t f = some e) :
    e.IsOf r L t f := by
  unfold classify? at h
  cases hKind : r.kind with
  | owns weight dynamic =>
    simp only [hKind, Option.some.injEq] at h
    subst h
    refine ⟨?_, rfl, by simp [SlotEntry.selectors]⟩
    rw [markValue_eq]
    simp [slotMarks, slotWeight, hKind, hSingle, Flags.empty, Flags.withWeight]
  | weak =>
    simp only [hKind, Option.some.injEq] at h
    subst h
    refine ⟨?_, rfl, by simp [SlotEntry.selectors]⟩
    rw [markValue_eq]
    have hClamp : clampWeight (-1) = -1 := by decide
    simp [slotMarks, slotWeight, hKind, hSingle, Flags.empty, Flags.withWeight, hClamp]
  | external =>
    simp only [hKind, Option.some.injEq] at h
    subst h
    refine ⟨?_, rfl, by simp [SlotEntry.selectors]⟩
    rw [markValue_eq]
    simp [slotMarks, slotWeight, hKind, Flags.ofMarks]
  | tag tags dynamic =>
    simp only [hKind, Option.ite_none_left_eq_some, Option.some.injEq] at h
    obtain ⟨-, rfl⟩ := h
    refine ⟨?_, rfl, by simp [SlotEntry.selectors, Selector.ofField, Selector.anchor?]⟩
    rw [markValue_eq]
    simp [slotMarks, slotWeight, hKind, Flags.ofMarks]
  | tagIf tags zero =>
    cases zero <;>
    · simp only [hKind, Option.some.injEq] at h
      subst h
      refine ⟨?_, rfl, by simp [SlotEntry.selectors]⟩
      rw [markValue_eq]
      simp [slotMarks, slotWeight, hKind, Flags.ofMarks]
  | fuseWith =>
    simp only [hKind, Option.ite_none_left_eq_some, Option.some.injEq] at h
    obtain ⟨-, rfl⟩ := h
    refine ⟨?_, rfl, by simp [SlotEntry.selectors, Selector.ofField, Selector.anchor?]⟩
    rw [markValue_eq]
    simp [slotMarks, slotWeight, hKind, Flags.ofMarks]

/-- A rule with a path anchors its selector, unless its kind is for single fields only. -/
theorem Rule.anchor_ok_iff {r : Rule} {isValue : Bool} {s : Selector} :
    (∃ e, r.anchor isValue s = .ok e) ↔ r.kind.requiresSingleField = false := by
  unfold anchor RuleKind.requiresSingleField
  cases r.kind <;> simp

theorem Rule.isOf_of_anchor {r : Rule} {L : Layout} {t f : Nat} {s : Selector} {e : SlotEntry}
    (hSingle : r.path.isSingleField = false) (hAnchor : s.anchor? = some (.field t f))
    (h : r.anchor (L.isValueField t f) s = .ok e) : e.IsOf r L t f := by
  unfold Rule.anchor at h
  cases hKind : r.kind with
  | external => simp [hKind] at h
  | tagIf tags zero => simp [hKind] at h
  | _ =>
    simp only [hKind, Except.ok.injEq] at h
    subst h
    refine ⟨?_, rfl, by simpa [SlotEntry.selectors] using hAnchor⟩
    rw [markValue_eq]
    simp [slotMarks, slotWeight, hKind, hSingle, Flags.ofMarks]

/-- Binding a path: its first field is declared, its later hops are bound, its kind can be anchored. -/
theorem Rule.bindPath_eq_ok_iff {r : Rule} {L : Layout} {t f : Nat} {e : SlotEntry} :
    r.bindPath L t = .ok (f, e) ↔
      ∃ name hops s, r.path.hops = .field name :: hops ∧ L.IsFirstDeclared t name f ∧
        bindHops L r.kind.isDynamic t f hops = .ok s ∧ r.anchor (L.isValueField t f) s = .ok e := by
  constructor
  · intro h
    unfold bindPath at h
    split at h
    · next name hops hPath =>
      cases hField : L.findDeclared t name with
      | none => simp [hField] at h
      | some g =>
        simp only [hField, bind_eq_ok_iff, pure_eq_ok_iff, Prod.mk.injEq] at h
        obtain ⟨s, hHops, e', hAnchor, rfl, rfl⟩ := h
        exact ⟨name, hops, s, hPath, Layout.findDeclared_eq_some_iff.mp hField, hHops, hAnchor⟩
    · cases h
  · rintro ⟨name, hops, s, hPath, hField, hHops, hAnchor⟩
    simp [bindPath, hPath, Layout.findDeclared_eq_some_iff.mpr hField, bind_eq_ok_iff,
      hHops, hAnchor]

/-- The selector of a path begins at the field that the path does. -/
theorem anchor?_of_bindHops {L : Layout} {dynamic : Bool} {t f : Nat} {hops : List Hop}
    {s : Selector} (h : bindHops L dynamic t f hops = .ok s) : s.anchor? = some (.field t f) := by
  cases dynamic with
  | true =>
    rw [bindHops_dynamic, Except.ok.injEq] at h
    rw [← h]
    rfl
  | false =>
    obtain ⟨fixed, last, -, -, rfl⟩ := bindHops_eq_ok_iff.mp h
    rfl

theorem Rule.isOf_of_entryAt? {r : Rule} {L : Layout} {t f : Nat} {e : SlotEntry}
    (h : r.entryAt? L t f = some e) : e.IsOf r L t f := by
  unfold entryAt? at h
  cases hPattern : r.path.pattern? with
  | some pattern =>
    simp only [hPattern, Option.ite_none_right_eq_some] at h
    exact isOf_of_classify? (by simp [FieldPath.isSingleField, hPattern]) h.2
  | none =>
    cases hBind : r.bindPath L t with
    | error fault => simp [hPattern, hBind] at h
    | ok bound =>
      obtain ⟨g, e'⟩ := bound
      simp only [hPattern, hBind, Option.ite_none_right_eq_some, Option.some.injEq] at h
      obtain ⟨rfl, rfl⟩ := h
      obtain ⟨name, hops, s, -, -, hHops, hAnchor⟩ := bindPath_eq_ok_iff.mp hBind
      exact isOf_of_anchor (by simp [FieldPath.isSingleField, hPattern])
        (anchor?_of_bindHops hHops) hAnchor

/-- A path of more than one hop is bound at field `f` exactly when it classifies the field. -/
theorem Rule.bindPath_ok_iff {r : Rule} {L : Layout} {t f : Nat} (hPattern : r.path.pattern? = none) :
    (∃ e, r.bindPath L t = .ok (f, e)) ↔ r.Classifies L t f := by
  constructor
  · rintro ⟨e, hBind⟩
    obtain ⟨name, hops, s, hPath, hField, hHops, hAnchor⟩ := bindPath_eq_ok_iff.mp hBind
    refine .path hPath ?_ hField ?_ (anchor_ok_iff.mp ⟨e, hAnchor⟩)
    · rintro rfl
      rw [FieldPath.pattern?_eq_some_iff.mpr hPath] at hPattern
      cases hPattern
    · cases hDynamic : r.kind.isDynamic with
      | true => exact .inl rfl
      | false =>
        rw [hDynamic] at hHops
        obtain ⟨fixed, last, hLeads, hValue, -⟩ := bindHops_eq_ok_iff.mp hHops
        exact .inr ⟨fixed, last, hLeads, hValue⟩
  · intro h
    cases h with
    | pattern hPath => rw [hPattern] at hPath; cases hPath
    | @path name hops hPath hMulti hField hHops hKind =>
      have hBound : ∃ s, bindHops L r.kind.isDynamic t f hops = .ok s := by
        cases hDynamic : r.kind.isDynamic with
        | true => exact ⟨_, bindHops_dynamic L t f hops⟩
        | false =>
          rw [hDynamic] at hHops
          obtain hFalse | ⟨fixed, last, hLeads, hValue⟩ := hHops
          · cases hFalse
          · exact ⟨_, bindHops_eq_ok_iff.mpr ⟨fixed, last, hLeads, hValue, rfl⟩⟩
      obtain ⟨s, hs⟩ := hBound
      have hAnchor : ∃ e, r.anchor (L.isValueField t f) s = .ok e := anchor_ok_iff.mpr hKind
      obtain ⟨e, he⟩ := hAnchor
      exact ⟨e, bindPath_eq_ok_iff.mpr ⟨name, hops, s, hPath, hField, hs, he⟩⟩

/-- A rule says something about a field exactly when it classifies the field. -/
theorem Rule.entryAt?_isSome_iff {r : Rule} {L : Layout} {t f : Nat} :
    (r.entryAt? L t f).isSome = true ↔ r.Classifies L t f := by
  cases hPattern : r.path.pattern? with
  | some pattern =>
    have hEntry : (r.entryAt? L t f).isSome = true ↔
        f < (L.fields t).length ∧ FieldPath.matchesField pattern (L.fieldName t f) = true ∧
          (r.kind.needsPointer = false ∨ L.isValueField t f = false) := by
      unfold entryAt?
      simp only [hPattern]
      split
      · next hFits =>
        rw [classify?_isSome]
        simp only [Bool.and_eq_true, decide_eq_true_eq] at hFits
        simp [hFits]
      · next hFits =>
        simp only [Bool.and_eq_true, decide_eq_true_eq, not_and] at hFits
        simp only [Option.isSome_none, Bool.false_eq_true, false_iff, not_and]
        exact fun hField hName => absurd hName (hFits hField)
    rw [hEntry]
    constructor
    · rintro ⟨hField, hName, hKind⟩
      exact .pattern hPattern hField hName hKind
    · intro h
      cases h with
      | pattern hPath hField hName hKind =>
        rw [hPattern, Option.some.injEq] at hPath
        exact ⟨hField, hPath ▸ hName, hKind⟩
      | path hPath hMulti =>
        rw [FieldPath.pattern?_eq_some_iff.mp hPattern] at hPath
        simp_all
  | none =>
    rw [← bindPath_ok_iff hPattern]
    unfold entryAt?
    simp only [hPattern]
    cases hBind : r.bindPath L t with
    | error fault => simp
    | ok bound =>
      obtain ⟨g, e⟩ := bound
      by_cases hg : g = f <;> simp [hg]

instance (r : Rule) (L : Layout) (t f : Nat) : Decidable (r.Classifies L t f) :=
  decidable_of_iff _ Rule.entryAt?_isSome_iff

/-! ## The entries of all rules -/

/-- Among the answers to the numbers below `n`, those of `f` are the one to `f`. -/
theorem filterMap_range_eq {α : Type} (answer : Nat → Option α) (n f : Nat) :
    (List.range n).filterMap (fun g => if g = f then answer g else none) =
      if f < n then (answer f).toList else [] := by
  induction n with
  | zero => rfl
  | succ n ih =>
    rw [List.range_succ, List.filterMap_append, ih]
    rcases Nat.lt_trichotomy f n with hlt | rfl | hgt
    · have hne : ¬n = f := by omega
      have hlt' : f < n + 1 := by omega
      simp [hlt, hlt', hne]
    · cases hAnswer : answer f <;> simp [hAnswer]
    · have hne : ¬n = f := by omega
      have hge : ¬f < n := by omega
      have hge' : ¬f < n + 1 := by omega
      simp [hge, hge', hne]

/-- The entries of a rule's effect on field `f`. -/
theorem Rule.effectOn_entries (r : Rule) (L : Layout) (t f : Nat) :
    ((r.effectOn L t).entries.filterMap fun entry => if entry.1 = f then some entry.2 else none) =
      (r.entryAt? L t f).toList := by
  unfold effectOn entryAt?
  cases hPattern : r.path.pattern? with
  | some pattern =>
    simp only [patternEffect, Layout.fieldsMatching, List.filterMap_filter, List.filterMap_filterMap]
    have hAnswers := filterMap_range_eq
      (fun g => if FieldPath.matchesField pattern (L.fieldName t g) then r.classify? L t g else none)
      (L.fields t).length f
    rw [List.filterMap_congr, hAnswers]
    · by_cases hField : f < (L.fields t).length <;> simp [hField]
    · intro g _
      by_cases hName : FieldPath.matchesField pattern (L.fieldName t g) = true <;>
        cases hEntry : r.classify? L t g <;> simp [hName]
  | none =>
    cases hBind : r.bindPath L t with
    | error fault => simp [pathEffect, hBind]
    | ok bound => by_cases hg : bound.1 = f <;> simp [pathEffect, hBind, hg]

/-- The effects of the rules about a type, each with its index. -/
theorem Ruleset.effectsOn_indicesAbout (L : Layout) (rules : List Rule) (t : Nat) :
    effectsOn L rules t (Matcher.indicesAbout L rules t) =
      ((Matcher.indexed rules).filter fun r => r.1.isAbout L t).map
        fun r => (r.2, r.1.effectOn L t) := by
  rw [effectsOn, Matcher.indicesAbout, List.filterMap_map, ← List.filterMap_eq_map]
  apply List.filterMap_congr
  intro r hr
  have hFound : rules[r.2]? = some r.1 := List.mem_zipIdx_iff_getElem?.mp (List.mem_of_mem_filter hr)
  simp [hFound]

/-- Selecting by the rule alone, the indices do not matter. -/
theorem Matcher.filter_indexed {α : Type} (rules : List Rule) (keep : Rule → Bool)
    (f : Rule → List α) :
    ((indexed rules).filter fun r => keep r.1).flatMap (fun r => f r.1) =
      (rules.filter keep).flatMap f := by
  have hRules : (indexed rules).map (·.1) = rules := List.zipIdx_map_fst 0 rules
  conv_rhs => rw [← hRules, List.filter_map, List.flatMap_map]
  rfl

/-- The effects on a type put together what every rule about it says about a field. -/
theorem Ruleset.entryOf_effectsOn (L : Layout) (rules : List Rule) (t f : Nat) :
    entryOf (effectsOn L rules t (Matcher.indicesAbout L rules t)) f =
      SlotEntry.mergeAll ((rules.filter (·.isAbout L t)).filterMap (·.entryAt? L t f)) := by
  rw [entryOf, effectsOn_indicesAbout, List.flatMap_map, List.filterMap_flatMap]
  simp only [Rule.effectOn_entries]
  rw [Matcher.filter_indexed rules (·.isAbout L t) fun r => (r.entryAt? L t f).toList,
    List.filterMap_eq_flatMap_toList]

theorem Ruleset.effects_eq (L : Layout) (rules : List Rule) :
    effects L rules =
      (List.range L.count).map fun t => effectsOn L rules t (Matcher.indicesAbout L rules t) := by
  rw [effects, Matcher.rulesForAll_spec (Matcher.faithful_ofRules L rules)
    (fun t ht => List.mem_range.mp ht), List.zipWith_map_right, List.zipWith_self]

/-- **The entry of a slot** merges what the rules about its type say, in their order. -/
theorem Ruleset.lookup?_bind (L : Layout) (rules : List Rule) (options : BindOptions) (t f : Nat) :
    lookup? (bind L rules options).1 ⟨t, some f⟩ =
      SlotEntry.mergeAll ((rules.filter (·.isAbout L t)).filterMap (·.entryAt? L t f)) := by
  by_cases hField : f < (L.fields t).length
  · have hType : t < L.count := Layout.lt_count_of_lt_fields hField
    rw [← entryOf_effectsOn]
    simp [lookup?, bind, effects_eq, hType, hField]
  · -- no rule says anything about a field that the type does not have
    have hSilent : ∀ r ∈ rules.filter (·.isAbout L t), r.entryAt? L t f = none := by
      intro r _
      rw [← Option.not_isSome_iff_eq_none, Rule.entryAt?_isSome_iff]
      intro h
      cases h with
      | pattern _ hIn => exact hField hIn
      | path _ _ hIn => exact hField hIn.inRange
    rw [List.filterMap_eq_nil_iff.mpr hSilent]
    by_cases hType : t < L.count <;> simp [lookup?, bind, effects_eq, hType, hField, SlotEntry.mergeAll]

/-! ## Merging -/

/-- The first of the items with the highest score: those before it score less, those after it not
more. -/
def IsFirstMax {α : Type} (score : α → Nat) (items : List α) (x : α) : Prop :=
  ∃ before after, items = before ++ x :: after ∧
    (∀ y ∈ before, score y < score x) ∧ ∀ y ∈ after, score y ≤ score x

theorem IsFirstMax.mem {α : Type} {score : α → Nat} {items : List α} {x : α}
    (h : IsFirstMax score items x) : x ∈ items := by
  obtain ⟨before, after, rfl, -⟩ := h
  exact List.mem_append_cons_self

theorem IsFirstMax.bound {α : Type} {score : α → Nat} {items : List α} {x y : α}
    (h : IsFirstMax score items x) (hy : y ∈ items) : score y ≤ score x := by
  obtain ⟨before, after, rfl, hBefore, hAfter⟩ := h
  rcases List.mem_append.mp hy with hy | hy
  · exact Nat.le_of_lt (hBefore y hy)
  · rcases List.mem_cons.mp hy with rfl | hy
    · exact Nat.le_refl _
    · exact hAfter y hy

/-- A new item that scores no more than the first maximum leaves it in place. -/
theorem IsFirstMax.append_le {α : Type} {score : α → Nat} {items : List α} {x y : α}
    (h : IsFirstMax score items x) (hy : score y ≤ score x) : IsFirstMax score (items ++ [y]) x := by
  obtain ⟨before, after, rfl, hBefore, hAfter⟩ := h
  refine ⟨before, after ++ [y], by simp, hBefore, ?_⟩
  intro z hz
  rcases List.mem_append.mp hz with hz | hz
  · exact hAfter z hz
  · rw [List.mem_singleton.mp hz]
    exact hy

/-- A new item that scores more than the first maximum takes its place. -/
theorem IsFirstMax.append_gt {α : Type} {score : α → Nat} {items : List α} {x y : α}
    (h : IsFirstMax score items x) (hy : score x < score y) : IsFirstMax score (items ++ [y]) y := by
  refine ⟨items, [], rfl, ?_, by simp⟩
  intro z hz
  exact Nat.lt_of_le_of_lt (h.bound hz) hy

/-- The marks of all. -/
def Marks.unionAll (marks : List Marks) : Marks :=
  marks.foldl (· ∪ ·) .empty

namespace SlotEntry

/-- Entries merge from the left, one at a time. -/
theorem mergeAll_append_singleton (es : List SlotEntry) (e : SlotEntry) :
    mergeAll (es ++ [e]) = some (((mergeAll es).map (·.merge e)).getD e) := by
  cases es with
  | nil => rfl
  | cons e' es => simp [mergeAll]

theorem mergeAll_eq_none_iff {es : List SlotEntry} : mergeAll es = none ↔ es = [] := by
  cases es <;> simp [mergeAll]

/-- Merging follows the entries from the first to the last: what holds of a single entry, and is kept
when one more entry is merged, holds of all entries and the merged one. -/
theorem mergeAll_concatInduction {P : List SlotEntry → SlotEntry → Prop} (hOne : ∀ e, P [e] e)
    (hMore : ∀ es e last, P es e → P (es ++ [last]) (e.merge last)) {es : List SlotEntry}
    {e : SlotEntry} (h : mergeAll es = some e) : P es e := by
  -- induction from the right, since entries merge from the left
  induction es using List.reverseRecOn generalizing e with
  | nil => cases h
  | append_singleton es last ih =>
    rw [mergeAll_append_singleton, Option.some.injEq] at h
    cases hPrevious : mergeAll es with
    | none =>
      have hNil : es = [] := mergeAll_eq_none_iff.mp hPrevious
      rw [hPrevious] at h
      subst hNil h
      exact hOne last
    | some previous =>
      rw [hPrevious] at h
      subst h
      exact hMore es previous last (ih hPrevious)

/-- What holds of every entry and is kept by merging holds of the merged entry. -/
theorem mergeAll_induction {P : SlotEntry → Prop} (hMerge : ∀ a b, P a → P b → P (a.merge b))
    {es : List SlotEntry} (hEach : ∀ e ∈ es, P e) {e : SlotEntry} (h : mergeAll es = some e) : P e := by
  refine mergeAll_concatInduction (P := fun es e => (∀ x ∈ es, P x) → P e) ?_ ?_ h hEach
  · intro e hEach
    exact hEach e (List.mem_singleton.mpr rfl)
  · intro es e last ih hEach
    have hKept : P e := ih fun x hx => hEach x (List.mem_append_left _ hx)
    exact hMerge e last hKept (hEach last (by simp))

/-- What all selectors of two entries have, those of both together have. -/
theorem forall_selectors_merge {P : Selector → Prop} {a b : SlotEntry} (ha : ∀ s ∈ a.selectors, P s)
    (hb : ∀ s ∈ b.selectors, P s) : ∀ s ∈ (a.merge b).selectors, P s := by
  intro s hs
  have hEither : s ∈ a.selectors ∨ s ∈ b.selectors := by
    simp only [selectors, SlotEntry.merge, List.map_append, List.mem_append] at hs ⊢
    tauto
  exact hEither.elim (ha s) (hb s)

/-- Weight and location come from the first entry of the heaviest. -/
theorem mergeAll_firstMax {es : List SlotEntry} {e : SlotEntry} (h : mergeAll es = some e) :
    ∃ x, IsFirstMax (fun e => e.flags.weight.natAbs) es x ∧
      e.flags.weight = x.flags.weight ∧ e.location = x.location := by
  refine mergeAll_concatInduction (P := fun es e => ∃ x,
    IsFirstMax (fun e => e.flags.weight.natAbs) es x ∧
      e.flags.weight = x.flags.weight ∧ e.location = x.location) ?_ ?_ h
  · intro e
    exact ⟨e, ⟨[], [], rfl, by simp, by simp⟩, rfl, rfl⟩
  · rintro es previous last ⟨x, hx, hWeight, hLocation⟩
    -- only a heavier entry replaces weight and location, so ties keep the first
    by_cases hHeavier : previous.flags.weight.natAbs < last.flags.weight.natAbs
    · refine ⟨last, hx.append_gt (hWeight ▸ hHeavier), ?_, ?_⟩
      · simp [merge, Flags.combine, Flags.heavier, hHeavier]
      · simp [merge, hHeavier]
    · refine ⟨x, hx.append_le (hWeight ▸ Nat.le_of_not_lt hHeavier), ?_, ?_⟩
      · show Flags.heavier previous.flags.weight last.flags.weight = x.flags.weight
        rw [Flags.heavier, if_neg hHeavier, hWeight]
      · show (if _ then last.location else previous.location) = x.location
        rw [if_neg hHeavier, hLocation]

/-- The marks of the merged entry are those of all. -/
theorem mergeAll_marks {es : List SlotEntry} {e : SlotEntry} (h : mergeAll es = some e) :
    e.flags.marks = Marks.unionAll (es.map (·.flags.marks)) := by
  refine mergeAll_concatInduction
    (P := fun es e => e.flags.marks = Marks.unionAll (es.map (·.flags.marks))) ?_ ?_ h
  · intro e
    simp [Marks.unionAll]
  · intro es previous last ih
    simp [Marks.unionAll, merge, Flags.combine, ih]

end SlotEntry

/-! ## Classified slots -/

namespace Ruleset

/-- The rules that classify a slot, in their order. -/
def classifying (L : Layout) (rules : List Rule) (t f : Nat) : List Rule :=
  rules.filter fun r => r.isAbout L t && decide (r.Classifies L t f)

theorem mem_entries_iff {r : Ruleset} {slot : Slot} {e : SlotEntry} :
    (slot, e) ∈ r.entries ↔ r.lookup? slot = some e := by
  obtain ⟨t, field⟩ := slot
  simp only [entries, List.mem_flatMap, List.mem_filterMap, Option.map_eq_some_iff,
    List.mem_zipIdx_iff_getElem?, Prod.exists, Prod.mk.injEq, Slot.mk.injEq]
  constructor
  · rintro ⟨row, u, hRow, cell, f, hCell, e', rfl, ⟨rfl, rfl⟩, rfl⟩
    simp [lookup?, hRow, hCell]
  · intro h
    cases field with
    | none => simp [lookup?] at h
    | some f =>
      cases hRow : r.table[t]? with
      | none => simp [lookup?, hRow] at h
      | some row =>
        refine ⟨row, t, hRow, some e, f, ?_, e, rfl, ⟨rfl, rfl⟩, rfl⟩
        simpa [lookup?, hRow, Option.join_eq_some_iff] using h

/-- The ruleset is what binding some rules on the layout gives. -/
def IsBoundOn (r : Ruleset) (L : Layout) : Prop :=
  ∃ rules options, r = (bind L rules options).1

/-- All selectors that hang on a slot. -/
def selectors (r : Ruleset) (slot : Slot) : List Selector :=
  (r.lookup? slot).elim [] (·.selectors)

/-- What every rule says about a field, and merging keeps, holds of what is said about a slot. -/
theorem bind_induction {L : Layout} {rules : List Rule} {options : BindOptions} {t f : Nat}
    {P : SlotEntry → Prop} (hMerge : ∀ a b, P a → P b → P (a.merge b))
    (hEach : ∀ rule ∈ rules, ∀ e, rule.entryAt? L t f = some e → P e) {e : SlotEntry}
    (hEntry : lookup? (bind L rules options).1 ⟨t, some f⟩ = some e) : P e := by
  rw [lookup?_bind] at hEntry
  refine SlotEntry.mergeAll_induction hMerge ?_ hEntry
  intro a ha
  obtain ⟨rule, hRule, hSays⟩ := List.mem_filterMap.mp ha
  exact hEach rule (List.mem_of_mem_filter hRule) a hSays

/-- What every rule's entry has, and merging keeps, every entry of a bound ruleset has. -/
theorem IsBoundOn.induction {r : Ruleset} {L : Layout} (h : r.IsBoundOn L) {t f : Nat}
    {P : SlotEntry → Prop} (hRule : ∀ rule e, e.IsOf rule L t f → P e)
    (hMerge : ∀ a b, P a → P b → P (a.merge b)) {e : SlotEntry}
    (hEntry : r.lookup? ⟨t, some f⟩ = some e) : P e := by
  obtain ⟨rules, options, rfl⟩ := h
  exact bind_induction hMerge (fun rule _ e hSays => hRule rule e (Rule.isOf_of_entryAt? hSays)) hEntry

/-- A classified slot is untraced exactly when its field has a value type. -/
theorem IsBoundOn.untraced {r : Ruleset} {L : Layout} (h : r.IsBoundOn L) {t f : Nat}
    {e : SlotEntry} (hEntry : r.lookup? ⟨t, some f⟩ = some e) :
    e.flags.marks.untraced = L.isValueField t f := by
  refine h.induction (P := fun e => e.flags.marks.untraced = L.isValueField t f) ?_ ?_ hEntry
  · intro rule e hOf
    have hRule : rule.slotMarks.untraced = false := by
      unfold Rule.slotMarks
      split <;> rfl
    show e.flags.marks.untraced = _
    rw [hOf.flags_eq]
    show (rule.slotMarks.untraced || _) = _
    rw [hRule, Bool.false_or]
    rfl
  · intro a b ha hb
    show (a.flags.marks.untraced || b.flags.marks.untraced) = _
    rw [ha, hb, Bool.or_self]

/-- The selectors that hang on a slot begin at the slot. -/
theorem IsBoundOn.anchor {r : Ruleset} {L : Layout} (h : r.IsBoundOn L) {t f : Nat} {s : Selector}
    (hs : s ∈ r.selectors ⟨t, some f⟩) : s.anchor? = some (.field t f) := by
  cases hEntry : r.lookup? ⟨t, some f⟩ with
  | none => simp [selectors, hEntry] at hs
  | some e =>
    have hAll : ∀ s ∈ e.selectors, s.anchor? = some (.field t f) :=
      h.induction (P := fun e => ∀ s ∈ e.selectors, s.anchor? = some (.field t f))
        (fun rule e hOf => hOf.anchor_eq) (fun _ _ ha hb => SlotEntry.forall_selectors_merge ha hb)
        hEntry
    exact hAll s (by simpa [selectors, hEntry] using hs)

end Ruleset

end RefRules
