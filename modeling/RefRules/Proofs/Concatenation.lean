import RefRules.Proofs.Tables

/-!
# RefRules — rule lists one behind the other

Binding goes through the types, and for each type through the rules about it. All the same, what two
lists of rules say one behind the other is what the first says, merged with what the second says: at
every slot, and in the messages. For this it does not matter how entries are merged in turn, also
where weights are of the same magnitude and tags occur again.

Main results:

* `SlotEntry.merge_assoc` — merging entries is associative;
* `Ruleset.mem_messages_bind_iff` — the messages of binding are those of each rule;
* `Ruleset.bind_append` — what two lists of rules say one behind the other.
-/

namespace RefRules

/-! ## Tag lists -/

theorem mergeTags_assoc (a b c : List String) :
    mergeTags (mergeTags a b) c = mergeTags a (mergeTags b c) := by
  -- on the tags of `c` from the last one: it is appended last on both sides, or on neither
  induction c using List.reverseRecOn with
  | nil => rfl
  | append_singleton c tag ih =>
    rw [mergeTags_concat, mergeTags_concat, ih]
    by_cases hOld : tag ∈ mergeTags b c
    · -- a tag of the later lists is in all of them
      have hMem : tag ∈ mergeTags a (mergeTags b c) := mem_mergeTags_iff.mpr (.inr hOld)
      rw [if_pos hMem, if_pos hOld]
    · rw [if_neg hOld, mergeTags_concat]

/-- Tags that stand once each are appended, but for those that are there. -/
theorem mergeTags_eq_append_filter (a : List String) {b : List String} (h : b.Nodup) :
    mergeTags a b = a ++ b.filter (· ∉ a) := by
  induction b using List.reverseRecOn with
  | nil => exact (List.append_nil a).symm
  | append_singleton b tag ih =>
    obtain ⟨hNodup, -, hNew⟩ := List.nodup_append.mp h
    have hOnce : tag ∉ b := fun hMem => hNew tag hMem tag (List.mem_singleton.mpr rfl) rfl
    rw [mergeTags_concat, ih hNodup, List.filter_append]
    by_cases hOld : tag ∈ a
    · simp [hOld]
    · simp [hOld, hOnce]

/-! ## Entries -/

namespace SlotEntry

theorem merge_assoc (a b c : SlotEntry) : (a.merge b).merge c = a.merge (b.merge c) := by
  -- the location follows the weight: the first of the heaviest gives both
  have hLocation : ((a.merge b).merge c).location = (a.merge (b.merge c)).location := by
    simp only [merge, Flags.combine, Flags.heavier]
    grind
  -- everything else is associative by itself
  simp only [merge] at hLocation ⊢
  rw [mk.injEq]
  refine ⟨Flags.combine_assoc .., hLocation, List.append_assoc .., List.append_assoc ..,
    List.append_assoc .., mergeTags_assoc .., mergeTags_assoc ..⟩

theorem mergeAll_append (before after : List SlotEntry) :
    mergeAll (before ++ after) = (mergeAll before).merge merge (mergeAll after) := by
  induction after using List.reverseRecOn with
  | nil => simp [mergeAll]
  | append_singleton after last ih =>
    rw [← List.append_assoc, mergeAll_append_singleton, mergeAll_append_singleton, ih]
    -- the last entry is merged behind those of both lists
    cases mergeAll before with
    | none => cases mergeAll after <;> rfl
    | some a =>
      cases mergeAll after with
      | none => rfl
      | some b => exact congrArg some (merge_assoc a b last)

end SlotEntry

namespace Ruleset

/-- What two lists of rules say about a slot is what the first says, merged with what the second
says. -/
theorem lookup?_bind_append (L : Layout) (A B : List Rule) (options : BindOptions) (slot : Slot) :
    lookup? (bind L (A ++ B) options).1 slot =
      Option.merge SlotEntry.merge
        (lookup? (bind L A options).1 slot) (lookup? (bind L B options).1 slot) := by
  obtain ⟨t, field⟩ := slot
  cases field with
  | none => rfl
  | some f =>
    rw [lookup?_bind, lookup?_bind, lookup?_bind, List.filter_append, List.filterMap_append,
      SlotEntry.mergeAll_append]

end Ruleset

/-! ## Messages -/

/-- The rule meets a field of some type that it is about, or a path that begins at one. -/
def Rule.Hits (r : Rule) (L : Layout) : Prop :=
  ∃ t < L.count, r.isAbout L t = true ∧ (r.effectOn L t).hit = true

/-- Binding the rule has a message: on some type that the rule is about, or because it meets
nothing. -/
def Rule.Warns (r : Rule) (L : Layout) (options : BindOptions) (message : String) : Prop :=
  (∃ t < L.count, r.isAbout L t = true ∧ message ∈ (r.effectOn L t).messages) ∨
    options.warnUnmatched = true ∧ ¬r.Hits L ∧ message = r.unmatchedMessage

namespace Ruleset

/-- The effects of binding are those of each rule, with its index, on the types it is about. -/
theorem mem_effects_iff {L : Layout} {rules : List Rule} {i : Nat} {effect : Effect} :
    (i, effect) ∈ (effects L rules).flatten ↔
      ∃ r, rules[i]? = some r ∧ ∃ t < L.count, r.isAbout L t = true ∧ effect = r.effectOn L t := by
  rw [effects_eq, List.mem_flatten]
  constructor
  · rintro ⟨_, hOfType, hEffect⟩
    obtain ⟨t, hType, rfl⟩ := List.mem_map.mp hOfType
    rw [effectsOn_indicesAbout] at hEffect
    obtain ⟨⟨r, j⟩, hKept, hEq⟩ := List.mem_map.mp hEffect
    obtain ⟨hIndexed, hAbout⟩ := List.mem_filter.mp hKept
    cases hEq
    exact ⟨r, List.mem_zipIdx_iff_getElem?.mp hIndexed, t, List.mem_range.mp hType, hAbout, rfl⟩
  · rintro ⟨r, hAt, t, hType, hAbout, rfl⟩
    refine ⟨_, List.mem_map.mpr ⟨t, List.mem_range.mpr hType, rfl⟩, ?_⟩
    have hIndexed : (r, i) ∈ Matcher.indexed rules := List.mem_zipIdx_iff_getElem?.mpr hAt
    rw [effectsOn_indicesAbout]
    exact List.mem_map.mpr ⟨(r, i), List.mem_filter.mpr ⟨hIndexed, hAbout⟩, rfl⟩

/-- A rule that stands at an index has met a field exactly when it meets one on some type. -/
theorem any_hit_effects_iff {L : Layout} {rules : List Rule} {i : Nat} {r : Rule}
    (hAt : rules[i]? = some r) :
    ((effects L rules).flatten.any fun e => e.1 == i && e.2.hit) = true ↔ r.Hits L := by
  simp only [List.any_eq_true, Bool.and_eq_true, beq_iff_eq]
  constructor
  · rintro ⟨⟨j, effect⟩, hEffect, rfl, hHit⟩
    obtain ⟨r', hAt', t, hType, hAbout, rfl⟩ := mem_effects_iff.mp hEffect
    -- there is one rule at the index
    rw [hAt, Option.some.injEq] at hAt'
    subst hAt'
    exact ⟨t, hType, hAbout, hHit⟩
  · rintro ⟨t, hType, hAbout, hHit⟩
    exact ⟨(i, r.effectOn L t), mem_effects_iff.mpr ⟨r, hAt, t, hType, hAbout, rfl⟩, rfl, hHit⟩

theorem mem_unmatchedMessages_iff {L : Layout} {rules : List Rule} {message : String} :
    message ∈ unmatchedMessages rules (effects L rules).flatten ↔
      ∃ r ∈ rules, ¬r.Hits L ∧ message = r.unmatchedMessage := by
  rw [unmatchedMessages, List.mem_filterMap]
  constructor
  · rintro ⟨⟨r, i⟩, hIndexed, hMessage⟩
    have hAt : rules[i]? = some r := List.mem_zipIdx_iff_getElem?.mp hIndexed
    simp only [any_hit_effects_iff hAt, Option.ite_none_left_eq_some, Option.some.injEq] at hMessage
    exact ⟨r, List.mem_of_getElem? hAt, hMessage.1, hMessage.2.symm⟩
  · rintro ⟨r, hr, hMiss, rfl⟩
    obtain ⟨i, hAt⟩ := List.mem_iff_getElem?.mp hr
    refine ⟨(r, i), List.mem_zipIdx_iff_getElem?.mpr hAt, ?_⟩
    rw [if_neg (mt (any_hit_effects_iff hAt).mp hMiss)]

/-- The messages of binding are those of each rule. -/
theorem mem_messages_bind_iff {L : Layout} {rules : List Rule} {options : BindOptions}
    {message : String} :
    message ∈ (bind L rules options).2 ↔ ∃ r ∈ rules, r.Warns L options message := by
  have hEffects : message ∈ (effects L rules).flatten.flatMap (fun e => e.2.messages) ↔
      ∃ r ∈ rules, ∃ t < L.count, r.isAbout L t = true ∧ message ∈ (r.effectOn L t).messages := by
    rw [List.mem_flatMap]
    constructor
    · rintro ⟨⟨i, effect⟩, hEffect, hMessage⟩
      obtain ⟨r, hAt, t, hType, hAbout, rfl⟩ := mem_effects_iff.mp hEffect
      exact ⟨r, List.mem_of_getElem? hAt, t, hType, hAbout, hMessage⟩
    · rintro ⟨r, hr, t, hType, hAbout, hMessage⟩
      obtain ⟨i, hAt⟩ := List.mem_iff_getElem?.mp hr
      exact ⟨(i, r.effectOn L t), mem_effects_iff.mpr ⟨r, hAt, t, hType, hAbout, rfl⟩, hMessage⟩
  simp only [bind, List.mem_append, hEffects, Rule.Warns, and_or_left, exists_or]
  cases options.warnUnmatched with
  | true => simp [mem_unmatchedMessages_iff]
  | false => simp

/-- At a slot, `r` says what `a` says and then what `b` says. -/
structure IsConcatAt (r a b : Ruleset) (slot : Slot) : Prop where
  flags_eq : r.flags slot = (a.flags slot).combine (b.flags slot)
  weights_eq : r.weights slot = a.weights slot ++ b.weights slot
  tags_eq : r.tags slot = a.tags slot ++ b.tags slot
  conditions_eq : r.conditions slot = a.conditions slot ++ b.conditions slot
  /-- Of the tags for zero, those are appended that are not yet there. -/
  zeroTags_eq : r.zeroTags slot =
    a.zeroTags slot ++ (b.zeroTags slot).filter (· ∉ a.zeroTags slot)
  /-- Of the tags for other values, those are appended that are not yet there. -/
  nonzeroTags_eq : r.nonzeroTags slot =
    a.nonzeroTags slot ++ (b.nonzeroTags slot).filter (· ∉ a.nonzeroTags slot)
  /-- The location is that of `b` where its weight has the larger magnitude or `a` says nothing. -/
  location_eq : r.location? slot =
    if (a.flags slot).weight.natAbs < (b.flags slot).weight.natAbs ∨ slot ∉ a.entries.map (·.1)
    then b.location? slot
    else a.location? slot

/-- Entries that merge where both are give tables that do. -/
theorem isConcatAt_of_lookup? {r a b : Ruleset} {slot : Slot}
    (h : r.lookup? slot = (a.lookup? slot).merge SlotEntry.merge (b.lookup? slot))
    (hDistinct : ∀ e, b.lookup? slot = some e → e.HasDistinctTags) : r.IsConcatAt a b slot := by
  have hClassified : slot ∈ a.entries.map (·.1) ↔ (a.lookup? slot).isSome = true :=
    mem_entries_map_iff
  cases hA : a.lookup? slot with
  | none =>
    rw [hA, Option.merge_none_left] at h
    constructor <;>
      simp [flags, weights, tags, conditions, zeroTags, nonzeroTags, location?, h, hA, hClassified]
  | some x =>
    cases hB : b.lookup? slot with
    | none =>
      rw [hA, hB] at h
      constructor <;>
        simp [flags, weights, tags, conditions, zeroTags, nonzeroTags, location?, h, hA, hB,
          hClassified]
    | some y =>
      rw [hA, hB] at h
      obtain ⟨hZero, hNonzero⟩ := hDistinct y hB
      constructor
      case zeroTags_eq =>
        simp [zeroTags, h, hA, hB, SlotEntry.merge, mergeTags_eq_append_filter _ hZero]
      case nonzeroTags_eq =>
        simp [nonzeroTags, h, hA, hB, SlotEntry.merge, mergeTags_eq_append_filter _ hNonzero]
      case location_eq =>
        simp [location?, flags, h, hA, hB, hClassified, SlotEntry.merge, apply_ite some]
      all_goals simp [flags, weights, tags, conditions, h, hA, hB, SlotEntry.merge]

/-- **Rule lists one behind the other.** What they say at every slot is what the first list says and
then what the second says. The messages are those of both. -/
theorem bind_append (L : Layout) (A B : List Rule) (options : BindOptions) :
    (∀ slot, (bind L (A ++ B) options).1.IsConcatAt (bind L A options).1 (bind L B options).1 slot) ∧
      ∀ message, message ∈ (bind L (A ++ B) options).2 ↔
        message ∈ (bind L A options).2 ∨ message ∈ (bind L B options).2 := by
  constructor
  · rintro ⟨t, field⟩
    refine isConcatAt_of_lookup? (lookup?_bind_append L A B options _) fun e hSays => ?_
    -- the tags of the second list stand in its entries once each
    cases field with
    | none => cases hSays
    | some f => exact hasDistinctTags_of_bind hSays
  · intro message
    simp only [mem_messages_bind_iff, List.mem_append, or_and_right, exists_or]

end Ruleset

end RefRules
