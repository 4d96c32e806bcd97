import RefRules.Proofs.Concatenation

/-!
# RefRules — rules in another order

Rules are bound in their order, and of two weights of the same magnitude the first one stays. So the
order of the rules shows where weights of the same magnitude have opposite signs. It shows nowhere
else, but for the order in which anchors and tags are listed. Weights count here as they are stored:
two large weights that are written differently are cut to the same magnitude.

Main results:

* `SlotEntry.exists_isReordered` — entries merged in another order;
* `Ruleset.bind_perm` — a list of rules and the same rules in another order;
* `Ruleset.flags_ne_of_heavyRules` — weights that differ as they are written, and tie as they are
  stored.
-/

namespace RefRules

/-! ## Marks and weights -/

theorem Marks.unionAll_perm {marks marks' : List Marks} (h : marks.Perm marks') :
    unionAll marks = unionAll marks' := by
  have hSwap : ∀ a b c : Marks, a ∪ b ∪ c = a ∪ c ∪ b := by
    intro a b c
    rw [union_assoc, union_comm b c, ← union_assoc]
  exact h.foldl_eq' (fun b _ c _ a => hSwap a b c) _

/-- The weight of a kind as it is written. -/
def RuleKind.weight : RuleKind → Int
  | owns weight _ => weight
  | weak => -1
  | _ => 0

/-- A rule that gives a weight is for single fields, and gives what it says, cut to what can be
stored. -/
theorem Rule.slotWeight_of_ne_zero {r : Rule} (h : r.slotWeight ≠ 0) :
    r.path.isSingleField = true ∧ r.slotWeight = clampWeight r.kind.weight := by
  unfold slotWeight at h ⊢
  by_cases hSingle : r.path.isSingleField = true
  · refine ⟨hSingle, ?_⟩
    rw [if_pos hSingle]
    cases r.kind <;> rfl
  · rw [if_neg hSingle] at h
    exact absurd rfl h

namespace SlotEntry

/-! ## Entries in another order -/

/-- Two entries say the same, but for the order of what hangs on the slot, and for its location. -/
structure IsReordered (a b : SlotEntry) : Prop where
  flags_eq : a.flags = b.flags
  weights_perm : a.weights.Perm b.weights
  tags_perm : a.tags.Perm b.tags
  conditions_perm : a.conditions.Perm b.conditions
  zeroTags_perm : a.zeroTags.Perm b.zeroTags
  nonzeroTags_perm : a.nonzeroTags.Perm b.nonzeroTags

variable {es es' : List SlotEntry} {e e' : SlotEntry}

/-- A list that merging appends holds the lists of all entries, one behind the other. -/
theorem mergeAll_flatMap {α : Type} {key : SlotEntry → List α}
    (hMerge : ∀ a b, key (a.merge b) = key a ++ key b) (h : mergeAll es = some e) :
    key e = es.flatMap key := by
  refine mergeAll_concatInduction (P := fun es e => key e = es.flatMap key) ?_ ?_ h
  · intro e
    exact (List.flatMap_singleton key e).symm
  · intro es e last ih
    rw [hMerge, ih, List.flatMap_append, List.flatMap_singleton]

/-- A list of tags that merging takes together holds the tags of all entries. -/
theorem mem_mergeAll_iff {key : SlotEntry → List String}
    (hMerge : ∀ a b, key (a.merge b) = mergeTags (key a) (key b)) (h : mergeAll es = some e)
    {tag : String} : tag ∈ key e ↔ ∃ x ∈ es, tag ∈ key x := by
  refine mergeAll_concatInduction (P := fun es e => tag ∈ key e ↔ ∃ x ∈ es, tag ∈ key x) ?_ ?_ h
  · intro e
    simp
  · intro es e last ih
    rw [hMerge, mem_mergeTags_iff, ih]
    simp [or_and_right, exists_or]

/-- Of entries without opposite weights, the heaviest weight does not depend on the order. -/
theorem weight_eq_of_perm (hPerm : es.Perm es')
    (hTies : ∀ a ∈ es, ∀ b ∈ es, b.flags.weight = -a.flags.weight → a.flags.weight = 0)
    (h : mergeAll es = some e) (h' : mergeAll es' = some e') : e.flags.weight = e'.flags.weight := by
  obtain ⟨x, hMax, hWeight, -⟩ := mergeAll_firstMax h
  obtain ⟨x', hMax', hWeight', -⟩ := mergeAll_firstMax h'
  have hx : x ∈ es := hMax.mem
  have hx' : x' ∈ es := hPerm.mem_iff.mpr hMax'.mem
  -- each of the two is as heavy as any entry, so they are as heavy as each other
  have hLe : x'.flags.weight.natAbs ≤ x.flags.weight.natAbs := hMax.bound hx'
  have hGe : x.flags.weight.natAbs ≤ x'.flags.weight.natAbs := hMax'.bound (hPerm.mem_iff.mp hx)
  have hTie := hTies x hx x' hx'
  rw [hWeight, hWeight']
  omega

/-- Entries merged in another order give an entry that says the same, when no two of them have
opposite weights. -/
theorem exists_isReordered (hPerm : es.Perm es') (hDistinct : ∀ x ∈ es, x.HasDistinctTags)
    (hTies : ∀ a ∈ es, ∀ b ∈ es, b.flags.weight = -a.flags.weight → a.flags.weight = 0)
    (h : mergeAll es = some e) : ∃ e', mergeAll es' = some e' ∧ e.IsReordered e' := by
  have hSome : mergeAll es' ≠ none := by
    rw [Ne, mergeAll_eq_none_iff]
    rintro rfl
    rw [hPerm.eq_nil] at h
    cases h
  obtain ⟨e', h'⟩ := Option.ne_none_iff_exists'.mp hSome
  have hOnce : e.HasDistinctTags := mergeAll_induction (fun _ _ ha _ => ha.merge) hDistinct h
  have hOnce' : e'.HasDistinctTags :=
    mergeAll_induction (fun _ _ ha _ => ha.merge) (fun x hx => hDistinct x (hPerm.mem_iff.mpr hx)) h'
  -- lists that merging appends
  have hLists {α : Type} (key : SlotEntry → List α)
      (hMerge : ∀ a b, key (a.merge b) = key a ++ key b) : (key e).Perm (key e') := by
    rw [mergeAll_flatMap hMerge h, mergeAll_flatMap hMerge h']
    exact hPerm.flatMap_right key
  -- lists of tags, which hold the same tags once each
  have hTags (key : SlotEntry → List String)
      (hMerge : ∀ a b, key (a.merge b) = mergeTags (key a) (key b)) (hNodup : (key e).Nodup)
      (hNodup' : (key e').Nodup) : (key e).Perm (key e') := by
    rw [List.perm_ext_iff_of_nodup hNodup hNodup']
    intro tag
    rw [mem_mergeAll_iff hMerge h, mem_mergeAll_iff hMerge h']
    simp only [hPerm.mem_iff]
  have hMarks : e.flags.marks = e'.flags.marks := by
    rw [mergeAll_marks h, mergeAll_marks h']
    exact Marks.unionAll_perm (hPerm.map _)
  have hWeight : e.flags.weight = e'.flags.weight := weight_eq_of_perm hPerm hTies h h'
  exact ⟨e', h', {
    flags_eq := congrArg₂ Flags.mk hMarks hWeight
    weights_perm := hLists (·.weights) fun _ _ => rfl
    tags_perm := hLists (·.tags) fun _ _ => rfl
    conditions_perm := hLists (·.conditions) fun _ _ => rfl
    zeroTags_perm := hTags (·.zeroTags) (fun _ _ => rfl) hOnce.zeroTags hOnce'.zeroTags
    nonzeroTags_perm := hTags (·.nonzeroTags) (fun _ _ => rfl) hOnce.nonzeroTags hOnce'.nonzeroTags }⟩

end SlotEntry

namespace Ruleset

/-! ## Rulesets in another order -/

/-- Two rules classify the same slot as single fields, with weights of the same magnitude and opposite
signs; `read` says how written weights are read. -/
def HasSignTie (read : Int → Int) (L : Layout) (rules : List Rule) : Prop :=
  ∃ t f, ∃ a ∈ classifying L rules t f, ∃ b ∈ classifying L rules t f,
    a.path.isSingleField = true ∧ b.path.isSingleField = true ∧
      read a.kind.weight ≠ 0 ∧ read b.kind.weight = -read a.kind.weight

/-- Two rulesets say the same about a slot, but for the order of what hangs on it. -/
structure IsReorderedAt (r r' : Ruleset) (slot : Slot) : Prop where
  classified_iff : slot ∈ r.entries.map (·.1) ↔ slot ∈ r'.entries.map (·.1)
  /-- The same marks and the same weight. -/
  flags_eq : r.flags slot = r'.flags slot
  weights_perm : (r.weights slot).Perm (r'.weights slot)
  tags_perm : (r.tags slot).Perm (r'.tags slot)
  conditions_perm : (r.conditions slot).Perm (r'.conditions slot)
  zeroTags_perm : (r.zeroTags slot).Perm (r'.zeroTags slot)
  nonzeroTags_perm : (r.nonzeroTags slot).Perm (r'.nonzeroTags slot)

/-- Rules have no sign ties where no two of them have opposite weights. -/
theorem not_hasSignTie_of_forall {read : Int → Int} {rules : List Rule} (L : Layout)
    (h : ∀ a ∈ rules, ∀ b ∈ rules, read b.kind.weight = -read a.kind.weight →
      read a.kind.weight = 0) : ¬HasSignTie read L rules := by
  rintro ⟨t, f, a, ha, b, hb, -, -, hNonzero, hOpposite⟩
  exact hNonzero (h a (List.mem_of_mem_filter ha) b (List.mem_of_mem_filter hb) hOpposite)

theorem isReorderedAt_of_none {r r' : Ruleset} {slot : Slot} (h : r.lookup? slot = none)
    (h' : r'.lookup? slot = none) : r.IsReorderedAt r' slot := by
  constructor <;>
    simp [mem_entries_map_iff, flags, weights, tags, conditions, zeroTags, nonzeroTags, h, h']

theorem isReorderedAt_of_some {r r' : Ruleset} {slot : Slot} {e e' : SlotEntry}
    (h : r.lookup? slot = some e) (h' : r'.lookup? slot = some e') (hSame : e.IsReordered e') :
    r.IsReorderedAt r' slot := by
  obtain ⟨hFlags, hWeights, hTags, hConditions, hZero, hNonzero⟩ := hSame
  constructor
  case classified_iff => simp [mem_entries_map_iff, h, h']
  all_goals simpa [flags, weights, tags, conditions, zeroTags, nonzeroTags, h, h']

/-- Rules without sign ties, as weights are stored, do not give a slot opposite weights. -/
theorem weight_eq_zero_of_opposite {L : Layout} {rules : List Rule} {t f : Nat} {x y : SlotEntry}
    (hTies : ¬HasSignTie clampWeight L rules)
    (hx : x ∈ (rules.filter (·.isAbout L t)).filterMap (·.entryAt? L t f))
    (hy : y ∈ (rules.filter (·.isAbout L t)).filterMap (·.entryAt? L t f))
    (hOpposite : y.flags.weight = -x.flags.weight) : x.flags.weight = 0 := by
  have hRule : ∀ z ∈ (rules.filter (·.isAbout L t)).filterMap (·.entryAt? L t f),
      ∃ r ∈ classifying L rules t f, z.flags.weight = r.slotWeight := by
    intro z hz
    obtain ⟨r, hr, hSays⟩ := List.mem_filterMap.mp hz
    obtain ⟨hMem, hAbout⟩ := List.mem_filter.mp hr
    have hClassifies : r.Classifies L t f := Rule.entryAt?_isSome_iff.mp (by simp [hSays])
    refine ⟨r, List.mem_filter.mpr ⟨hMem, by simp [hAbout, hClassifies]⟩, ?_⟩
    rw [(Rule.isOf_of_entryAt? hSays).flags_eq]
  obtain ⟨a, ha, hWeight⟩ := hRule x hx
  obtain ⟨b, hb, hWeight'⟩ := hRule y hy
  by_contra hNonzero
  rw [hWeight] at hNonzero
  rw [hWeight, hWeight'] at hOpposite
  -- both weights are other than zero, so both rules are for single fields
  have hNonzero' : b.slotWeight ≠ 0 := by omega
  obtain ⟨hSingle, hStored⟩ := Rule.slotWeight_of_ne_zero hNonzero
  obtain ⟨hSingle', hStored'⟩ := Rule.slotWeight_of_ne_zero hNonzero'
  rw [hStored] at hNonzero
  rw [hStored, hStored'] at hOpposite
  exact hTies ⟨t, f, a, ha, b, hb, hSingle, hSingle', hNonzero, hOpposite⟩

/-- **Rules in another order.** When no two rules for single fields give a slot stored weights of the
same magnitude and opposite signs, every order of the rules gives each slot the same classification,
the same anchors and the same tags, and binding has the same messages. -/
theorem bind_perm (L : Layout) {rules rules' : List Rule} (hPerm : rules.Perm rules')
    (hTies : ¬HasSignTie clampWeight L rules) (options : BindOptions) :
    (∀ slot, (bind L rules options).1.IsReorderedAt (bind L rules' options).1 slot) ∧
      ∀ message, message ∈ (bind L rules options).2 ↔ message ∈ (bind L rules' options).2 := by
  constructor
  · rintro ⟨t, field⟩
    cases field with
    | none => exact isReorderedAt_of_none rfl rfl
    | some f =>
      have hEntry := lookup?_bind L rules options t f
      have hEntry' := lookup?_bind L rules' options t f
      have hSays := (hPerm.filter (·.isAbout L t)).filterMap (·.entryAt? L t f)
      have hDistinct : ∀ x ∈ (rules.filter (·.isAbout L t)).filterMap (·.entryAt? L t f),
          x.HasDistinctTags := by
        intro x hx
        obtain ⟨r, -, hr⟩ := List.mem_filterMap.mp hx
        exact Rule.hasDistinctTags_of_entryAt? hr
      cases hMerged : lookup? (bind L rules options).1 ⟨t, some f⟩ with
      | none =>
        -- nothing is said in either order
        refine isReorderedAt_of_none hMerged ?_
        rw [hEntry, SlotEntry.mergeAll_eq_none_iff] at hMerged
        rw [hMerged] at hSays
        rw [hEntry', hSays.symm.eq_nil]
        rfl
      | some e =>
        obtain ⟨e', hMerged', hSame⟩ := SlotEntry.exists_isReordered hSays hDistinct
          (fun x hx y hy => weight_eq_zero_of_opposite hTies hx hy) (hEntry ▸ hMerged)
        exact isReorderedAt_of_some hMerged (hEntry'.trans hMerged') hSame
  · intro message
    simp only [mem_messages_bind_iff, hPerm.mem_iff]

/-- A rule of a rule file about the nodes of a list. -/
def nodeRule (kind : RuleKind) (hops : List Hop) (line : Nat) : Rule :=
  ⟨⟨"Node", none, .exact "Node"⟩, kind, ⟨hops⟩, ⟨"a.rcl", line⟩, anonymousGroup⟩

/-- Weights of different magnitudes, a tag on the next node, and one on the next but one. -/
def steadyRules : List Rule :=
  [nodeRule (.owns 4 false) [.field "next"] 1, nodeRule (.owns (-8) false) [.field "next"] 2,
    nodeRule (.tag ["a"] false) [.field "next"] 3,
    nodeRule (.tag ["b"] false) [.field "next", .field "next"] 4]

theorem bind_perm_steadyRules :
    ¬HasSignTie clampWeight listLayout steadyRules ∧
      (bind listLayout steadyRules {}).1.IsReorderedAt
        (bind listLayout steadyRules.reverse {}).1 ⟨0, some 0⟩ ∧
      (bind listLayout steadyRules {}).1.flags ⟨0, some 0⟩ = ⟨{ tagAnchor := true }, -8⟩ := by
  have hTies : ¬HasSignTie clampWeight listLayout steadyRules :=
    not_hasSignTie_of_forall listLayout (by decide)
  refine ⟨hTies, ?_, ?_⟩
  · exact (bind_perm listLayout (List.reverse_perm steadyRules).symm hTies {}).1 ⟨0, some 0⟩
  · rw [flags, lookup?_bind]
    decide +kernel

/-- Both weights are cut to the largest magnitude that can be stored. -/
def heavyRules : List Rule :=
  [nodeRule (.owns 200 false) [.field "next"] 1, nodeRule (.owns (-300) false) [.field "next"] 2]

/-- Weights of different magnitudes as they are written, and still the order of the rules decides. -/
theorem flags_ne_of_heavyRules :
    heavyRules.Perm heavyRules.reverse ∧ ¬HasSignTie id listLayout heavyRules ∧
      (bind listLayout heavyRules {}).1.flags ⟨0, some 0⟩ = ⟨{}, 127⟩ ∧
      (bind listLayout heavyRules.reverse {}).1.flags ⟨0, some 0⟩ = ⟨{}, -127⟩ := by
  refine ⟨(List.reverse_perm heavyRules).symm, ?_, ?_, ?_⟩
  · exact not_hasSignTie_of_forall listLayout (by decide)
  · rw [flags, lookup?_bind]
    decide +kernel
  · rw [flags, lookup?_bind]
    decide +kernel

end Ruleset

end RefRules
