import RefRules.Proofs.Order
import RefRules.Proofs.Warnings

/-!
# RefRules — rules that fail

A rule fails on a type when it classifies none of its fields. What the ruleset says about the type is
then what it says without the rule; and where a path could not be bound, the log says so once. So no
rule is dropped in silence, with one exception that is meant: a pattern with a star sweeps over value
fields without a word, although its rule needs pointers.

Main results:

* `Rule.failsOn_iff` — why a rule fails on a type;
* `Ruleset.bind_insert` — a rule that fails on a type leaves its slots as they are, and a path that
  fails has one message;
* `SlotEntry.isPartOf_of_mem` — what each rule says is part of what is said about a slot;
* `Ruleset.contributes_or_reported` — a rule says something, or a warning names it, or it sweeps over
  value fields only.
-/

namespace RefRules

namespace Rule

variable {r : Rule} {L : Layout} {t f : Nat} {message : String}

/-! ## Rules that fail on a type -/

/-- Why a rule classifies no field of type `t`. -/
inductive FailsOn (r : Rule) (L : Layout) (t : Nat) : Prop
  /-- Its spec does not accept the type. -/
  | spec (hSpec : r.isAbout L t = false)
  /-- Its pattern fits no field, or only value fields although the rule needs pointers. -/
  | pattern {pattern : String} (hPath : r.path.pattern? = some pattern)
      (hFields : ∀ f ∈ L.fieldsMatching t pattern,
        r.kind.needsPointer = true ∧ L.isValueField t f = true)
  /-- Its path cannot be bound. -/
  | path {fault : BindFault} (hPath : r.path.pattern? = none)
      (hFault : r.bindPath L t = .error fault)

/-- The fields that fit a pattern are those of the type whose names do. -/
theorem mem_fieldsMatching_iff {pattern : String} :
    f ∈ L.fieldsMatching t pattern ↔
      f < (L.fields t).length ∧ FieldPath.matchesField pattern (L.fieldName t f) = true := by
  rw [Layout.fieldsMatching, List.mem_filter, List.mem_range]

/-- Among the fields that fit its pattern, a rule classifies those that it can. -/
theorem classifies_iff_of_pattern {pattern : String} (hPath : r.path.pattern? = some pattern) :
    r.Classifies L t f ↔ f ∈ L.fieldsMatching t pattern ∧ (r.classify? L t f).isSome = true := by
  rw [← entryAt?_isSome_iff, mem_fieldsMatching_iff, entryAt?]
  simp only [hPath]
  -- a field is classified behind the check that its name fits
  split
  · next hFits => simp_all
  · next hFits =>
    simp only [Bool.and_eq_true, decide_eq_true_eq] at hFits
    simp [hFits]

/-- A path that classifies no field cannot be bound. -/
theorem exists_fault_of_not_classifies (hPath : r.path.pattern? = none)
    (h : ∀ f, ¬r.Classifies L t f) : ∃ fault, r.bindPath L t = .error fault := by
  cases hBind : r.bindPath L t with
  | error fault => exact ⟨fault, rfl⟩
  | ok bound =>
    obtain ⟨f, e⟩ := bound
    exact absurd ((bindPath_ok_iff hPath).mp ⟨e, hBind⟩) (h f)

theorem failsOn_iff : r.FailsOn L t ↔ ∀ f, r.isAbout L t = true → ¬r.Classifies L t f := by
  constructor
  · rintro (hSpec | ⟨hPath, hFields⟩ | ⟨hPath, hFault⟩) f hAbout hClassifies
    · rw [hSpec] at hAbout
      cases hAbout
    · obtain ⟨hField, hEntry⟩ := (classifies_iff_of_pattern hPath).mp hClassifies
      obtain ⟨hKind, hValue⟩ := hFields f hField
      rw [classify?_isSome, hKind, hValue] at hEntry
      cases hEntry
    · obtain ⟨e, hBind⟩ := (bindPath_ok_iff hPath).mpr hClassifies
      rw [hFault] at hBind
      cases hBind
  · intro h
    -- the reasons follow the order of binding: the spec is asked first, then the pattern or the path
    cases hAbout : r.isAbout L t with
    | false => exact .spec hAbout
    | true =>
      cases hPath : r.path.pattern? with
      | none =>
        obtain ⟨fault, hFault⟩ := exists_fault_of_not_classifies hPath fun f => h f hAbout
        exact .path hPath hFault
      | some pattern =>
        refine .pattern hPath fun f hField => ?_
        have hEntry : ¬(r.classify? L t f).isSome = true := fun hEntry =>
          h f hAbout ((classifies_iff_of_pattern hPath).mpr ⟨hField, hEntry⟩)
        rw [classify?_isSome] at hEntry
        simpa using hEntry

/-- A rule that fails on a type says nothing about its fields. -/
theorem entryAt?_eq_none_of_failsOn (h : r.FailsOn L t) (hAbout : r.isAbout L t = true) (f : Nat) :
    r.entryAt? L t f = none := by
  rw [← Option.not_isSome_iff_eq_none, entryAt?_isSome_iff]
  exact failsOn_iff.mp h f hAbout

/-! ## The messages of a rule -/

/-- The message begins with the location of the rule. -/
def IsNamedIn (r : Rule) (message : String) : Prop :=
  ∃ rest, message = r.location.text ++ ": " ++ rest

theorem isNamedIn_valueMessage : r.IsNamedIn (r.valueMessage L t f) := by
  refine ⟨s!"{r.kind.verb.keyword} needs a reference field, " ++
    s!"{L.describeField t (some f)} is a value type", ?_⟩
  simp only [valueMessage, toString, String.append_assoc]

theorem isNamedIn_pathMessage (fault : BindFault) : r.IsNamedIn (r.pathMessage fault) := by
  refine ⟨s!"{fault.message} (selector '{r.path.text}')", ?_⟩
  simp only [pathMessage, toString, String.append_assoc]

theorem isNamedIn_unmatchedMessage : r.IsNamedIn r.unmatchedMessage := by
  have hColon : ": rule " = ": " ++ "rule " := rfl
  refine ⟨s!"rule {r.text} never matched any field", ?_⟩
  simp only [unmatchedMessage, toString, hColon, String.append_assoc]

/-- A path that cannot be bound on a type has one message there. -/
theorem messages_effectOn_of_fault {fault : BindFault} (hPath : r.path.pattern? = none)
    (hFault : r.bindPath L t = .error fault) :
    (r.effectOn L t).messages = [r.pathMessage fault] := by
  simp [effectOn, hPath, pathEffect, hFault]

/-- A pattern has messages only about value fields, and only without a star. -/
theorem mem_messages_effectOn_iff {pattern : String} (hPath : r.path.pattern? = some pattern) :
    message ∈ (r.effectOn L t).messages ↔
      FieldPath.isExactPattern pattern = true ∧ ∃ f ∈ L.fieldsMatching t pattern,
        (r.classify? L t f).isNone = true ∧ message = r.valueMessage L t f := by
  simp only [effectOn, hPath, patternEffect]
  cases FieldPath.isExactPattern pattern with
  | false => simp
  | true =>
    simp only [if_true, true_and, List.mem_map, List.mem_filter]
    constructor
    · rintro ⟨f, ⟨hField, hNone⟩, rfl⟩
      exact ⟨f, hField, hNone, rfl⟩
    · rintro ⟨f, hField, hNone, rfl⟩
      exact ⟨f, ⟨hField, hNone⟩, rfl⟩

end Rule

namespace Ruleset

variable {L : Layout} {rules : List Rule} {options : BindOptions} {t f : Nat}

/-! ## A rule among others -/

/-- The seven tables of two rulesets agree at a slot. -/
structure SaysSameAt (a b : Ruleset) (slot : Slot) : Prop where
  flags_eq : a.flags slot = b.flags slot
  location_eq : a.location? slot = b.location? slot
  weights_eq : a.weights slot = b.weights slot
  tags_eq : a.tags slot = b.tags slot
  conditions_eq : a.conditions slot = b.conditions slot
  zeroTags_eq : a.zeroTags slot = b.zeroTags slot
  nonzeroTags_eq : a.nonzeroTags slot = b.nonzeroTags slot

theorem saysSameAt_of_lookup?_eq {a b : Ruleset} {slot : Slot} (h : a.lookup? slot = b.lookup? slot) :
    a.SaysSameAt b slot := by
  constructor <;> simp [flags, location?, weights, tags, conditions, zeroTags, nonzeroTags, h]

/-- What is said about the fields of a type does not change with a rule that fails on it. -/
theorem lookup?_bind_insert (before after : List Rule) {r : Rule} (hFails : r.FailsOn L t)
    (field : Option Nat) :
    lookup? (bind L (before ++ r :: after) options).1 ⟨t, field⟩ =
      lookup? (bind L (before ++ after) options).1 ⟨t, field⟩ := by
  cases field with
  | none => rfl
  | some f =>
    rw [lookup?_bind, lookup?_bind, List.filter_append, List.filter_append, List.filter_cons]
    by_cases hAbout : r.isAbout L t = true
    · -- the rule is asked, and has nothing to say
      have hSilent : r.entryAt? L t f = none := Rule.entryAt?_eq_none_of_failsOn hFails hAbout f
      simp only [if_pos hAbout, List.filterMap_append, List.filterMap_cons, hSilent]
    · rw [if_neg hAbout]

/-- The log of binding, when messages are put into a log that may hold others. -/
def logInto (log : WarningLog) (L : Layout) (rules : List Rule) (options : BindOptions) :
    WarningLog :=
  (log.addAll bindPhase (bind L rules options).2).2

theorem mem_messages_logInto_iff {log : WarningLog} {message : String} :
    message ∈ (logInto log L rules options).messages bindPhase ↔
      message ∈ log.messages bindPhase ∨ ∃ r ∈ rules, r.Warns L options message := by
  rw [logInto, WarningLog.mem_messages_addAll_iff, mem_messages_bind_iff]

/-- **A rule that fails disturbs nothing.** On a type whose fields it does not classify, wherever it
stands among others, all tables are as they are without it, and its messages come to those of the
others. If its path could not be bound there, this pair of rule and type has one message, which stands
in the log once. -/
theorem bind_insert (before after : List Rule) {r : Rule}
    (hSilent : ∀ f, r.isAbout L t = true → ¬r.Classifies L t f) (options : BindOptions) :
    r.FailsOn L t ∧
    (∀ field, (bind L (before ++ r :: after) options).1.SaysSameAt
      (bind L (before ++ after) options).1 ⟨t, field⟩) ∧
    (∀ (log : WarningLog) (message : String),
      message ∈ (logInto log L (before ++ r :: after) options).messages bindPhase ↔
        message ∈ (logInto log L (before ++ after) options).messages bindPhase ∨
          r.Warns L options message) ∧
    (r.path.isSingleField = false → r.isAbout L t = true → t < L.count →
      ∃ fault, r.bindPath L t = .error fault ∧
        (r.effectOn L t).messages = [r.pathMessage fault] ∧
        ∀ log : WarningLog, (log.messages bindPhase).Nodup →
          ((logInto log L (before ++ r :: after) options).messages bindPhase).count
            (r.pathMessage fault) = 1) := by
  have hFails : r.FailsOn L t := Rule.failsOn_iff.mpr hSilent
  refine ⟨hFails, ?_, ?_, ?_⟩
  · intro field
    exact saysSameAt_of_lookup?_eq (lookup?_bind_insert before after hFails field)
  · intro log message
    simp only [mem_messages_logInto_iff, List.mem_append, List.mem_cons, or_and_right, exists_or,
      exists_eq_left]
    rw [or_assoc, or_assoc, or_comm (a := r.Warns L options message)]
  · intro hMulti hAbout hType
    -- several hops are no pattern, so it is the path that was not bound
    have hPath : r.path.pattern? = none := by
      simpa [FieldPath.isSingleField] using hMulti
    obtain ⟨fault, hFault⟩ := Rule.exists_fault_of_not_classifies hPath fun f => hSilent f hAbout
    have hMessages := Rule.messages_effectOn_of_fault hPath hFault
    have hWarns : r.Warns L options (r.pathMessage fault) := by
      refine .inl ⟨t, hType, hAbout, ?_⟩
      rw [hMessages]
      exact List.mem_singleton.mpr rfl
    refine ⟨fault, hFault, hMessages, fun log hNodup => ?_⟩
    refine WarningLog.count_messages_addAll hNodup (mem_messages_bind_iff.mpr ⟨r, ?_, hWarns⟩)
    exact List.mem_append_cons_self

/-- The elements of a number, which has none. -/
def elementsOfNumber : Rule :=
  nodeRule .fuseWith [.field "next", .field "len", .elements] 2

/-- Between two others, the rule fails on nodes and leaves what those say about them. -/
theorem bind_insert_elementsOfNumber :
    (∀ f, elementsOfNumber.isAbout listLayout 0 = true → ¬elementsOfNumber.Classifies listLayout 0 f) ∧
      (bind listLayout (steadyRules ++ elementsOfNumber :: heavyRules) {}).1.SaysSameAt
        (bind listLayout (steadyRules ++ heavyRules) {}).1 ⟨0, some 0⟩ ∧
      ((logInto {} listLayout (steadyRules ++ elementsOfNumber :: heavyRules) {}).messages
        bindPhase).count "a.rcl:2: '[]' used on non-array type Int (selector 'next.len[]')" = 1 := by
  have hFault : elementsOfNumber.bindPath listLayout 0 = .error (.notArray "Int") := rfl
  have hSilent := Rule.failsOn_iff.mp (.path rfl hFault)
  obtain ⟨-, hTables, -, hMessage⟩ := bind_insert steadyRules heavyRules hSilent {}
  obtain ⟨fault, hSame, -, hOnce⟩ := hMessage rfl (by decide +kernel) (by decide)
  rw [hFault, Except.error.injEq] at hSame
  subst hSame
  exact ⟨hSilent, hTables (some 0), hOnce {} List.nodup_nil⟩

end Ruleset

/-! ## What a rule contributes -/

/-- The marks of each item are among the marks of all. -/
theorem Marks.unionAll_union_of_mem {m : Marks} {marks : List Marks} (h : m ∈ marks) :
    unionAll marks ∪ m = unionAll marks := by
  obtain ⟨before, after, rfl⟩ := List.append_of_mem h
  -- with the item in the last place
  have hLast : unionAll (before ++ m :: after) = unionAll (before ++ after) ∪ m := by
    rw [unionAll_perm (List.perm_middle.trans (List.perm_append_singleton m (before ++ after)).symm)]
    simp [unionAll]
  rw [hLast, union_assoc, union_self]

namespace SlotEntry

/-- All that one entry says is said by the other. -/
structure IsPartOf (part whole : SlotEntry) : Prop where
  marks : whole.flags.marks ∪ part.flags.marks = whole.flags.marks
  /-- A weight may be outweighed. -/
  weight : part.flags.weight.natAbs ≤ whole.flags.weight.natAbs
  weights : part.weights ⊆ whole.weights
  tags : part.tags ⊆ whole.tags
  conditions : part.conditions ⊆ whole.conditions
  zeroTags : part.zeroTags ⊆ whole.zeroTags
  nonzeroTags : part.nonzeroTags ⊆ whole.nonzeroTags

/-- Each of the entries that are merged is part of the merged one. -/
theorem isPartOf_of_mem {es : List SlotEntry} {part whole : SlotEntry} (hPart : part ∈ es)
    (h : mergeAll es = some whole) : part.IsPartOf whole := by
  -- lists that merging appends, and lists of tags
  have hLists {α : Type} (key : SlotEntry → List α)
      (hMerge : ∀ a b, key (a.merge b) = key a ++ key b) : key part ⊆ key whole := by
    intro x hx
    rw [mergeAll_flatMap hMerge h]
    exact List.mem_flatMap.mpr ⟨part, hPart, hx⟩
  have hTags (key : SlotEntry → List String)
      (hMerge : ∀ a b, key (a.merge b) = mergeTags (key a) (key b)) : key part ⊆ key whole :=
    fun tag hTag => (mem_mergeAll_iff hMerge h).mpr ⟨part, hPart, hTag⟩
  obtain ⟨x, hMax, hWeight, -⟩ := mergeAll_firstMax h
  constructor
  case marks =>
    rw [mergeAll_marks h]
    exact Marks.unionAll_union_of_mem (List.mem_map_of_mem hPart)
  case weight =>
    rw [hWeight]
    exact hMax.bound hPart
  case weights => exact hLists (·.weights) fun _ _ => rfl
  case tags => exact hLists (·.tags) fun _ _ => rfl
  case conditions => exact hLists (·.conditions) fun _ _ => rfl
  case zeroTags => exact hTags (·.zeroTags) fun _ _ => rfl
  case nonzeroTags => exact hTags (·.nonzeroTags) fun _ _ => rfl

end SlotEntry

namespace Rule

variable {r : Rule} {L : Layout} {t f : Nat} {message : String}

/-- The rule classifies a slot, and all that it says about it is in the ruleset. -/
def Contributes (r : Rule) (L : Layout) (s : Ruleset) : Prop :=
  ∃ t f part whole, r.isAbout L t = true ∧ r.entryAt? L t f = some part ∧
    s.lookup? ⟨t, some f⟩ = some whole ∧ part.IsPartOf whole

/-- A warning of binding names the rule: it begins with the rule's location. -/
def IsReportedIn (r : Rule) (log : WarningLog) : Prop :=
  ∃ message ∈ log.messages bindPhase, r.IsNamedIn message

/-- A rule that needs pointers, with a pattern that ends in a star and fits some fields of the types
that it is about, but only value fields. -/
inductive SweepsValues (r : Rule) (L : Layout) : Prop
  | intro {pattern : String} (hPath : r.path.pattern? = some pattern)
      (hStar : FieldPath.isExactPattern pattern = false) (hKind : r.kind.needsPointer = true)
      (hMeets : ∃ t < L.count, r.isAbout L t = true ∧ L.fieldsMatching t pattern ≠ [])
      (hValues : ∀ t < L.count, r.isAbout L t = true →
        ∀ f ∈ L.fieldsMatching t pattern, L.isValueField t f = true)

/-- A rule that classifies a slot contributes to every ruleset that it is bound for. -/
theorem contributes_of_classifies {rules : List Rule} (hr : r ∈ rules) (options : BindOptions)
    (hAbout : r.isAbout L t = true) (hClassifies : r.Classifies L t f) :
    r.Contributes L (Ruleset.bind L rules options).1 := by
  obtain ⟨part, hPart⟩ := Option.isSome_iff_exists.mp (entryAt?_isSome_iff.mpr hClassifies)
  have hEntry := Ruleset.lookup?_bind L rules options t f
  have hMem : part ∈ (rules.filter (·.isAbout L t)).filterMap (·.entryAt? L t f) :=
    List.mem_filterMap.mpr ⟨r, List.mem_filter.mpr ⟨hr, hAbout⟩, hPart⟩
  cases hWhole : SlotEntry.mergeAll
      ((rules.filter (·.isAbout L t)).filterMap (·.entryAt? L t f)) with
  | none =>
    rw [SlotEntry.mergeAll_eq_none_iff.mp hWhole] at hMem
    cases hMem
  | some whole =>
    exact ⟨t, f, part, whole, hAbout, hPart, hEntry.trans hWhole,
      SlotEntry.isPartOf_of_mem hMem hWhole⟩

/-- A rule that classifies no slot and has no message sweeps over value fields only. -/
theorem sweepsValues_of_hits (hHits : r.Hits L)
    (hSilent : ∀ t f, r.isAbout L t = true → ¬r.Classifies L t f)
    (hMute : ∀ t < L.count, r.isAbout L t = true → (r.effectOn L t).messages = []) :
    r.SweepsValues L := by
  obtain ⟨t, hType, hAbout, hHit⟩ := hHits
  cases hPath : r.path.pattern? with
  | none =>
    -- a path has a message where it is not bound
    obtain ⟨fault, hFault⟩ := exists_fault_of_not_classifies hPath fun f => hSilent t f hAbout
    have hMessages := messages_effectOn_of_fault hPath hFault
    rw [hMute t hType hAbout] at hMessages
    cases hMessages
  | some pattern =>
    have hLeftOut : ∀ t, r.isAbout L t = true → ∀ f ∈ L.fieldsMatching t pattern,
        r.kind.needsPointer = true ∧ L.isValueField t f = true := by
      intro u hAboutU f hField
      have hEntry : ¬(r.classify? L u f).isSome = true := fun hEntry =>
        hSilent u f hAboutU ((classifies_iff_of_pattern hPath).mpr ⟨hField, hEntry⟩)
      rw [classify?_isSome] at hEntry
      simpa using hEntry
    have hMeets : L.fieldsMatching t pattern ≠ [] := by
      simpa [effectOn, hPath, patternEffect] using hHit
    obtain ⟨f, hField⟩ := List.exists_mem_of_ne_nil _ hMeets
    refine .intro hPath ?_ (hLeftOut t hAbout f hField).1 ⟨t, hType, hAbout, hMeets⟩
      fun u _ hAboutU f hField => (hLeftOut u hAboutU f hField).2
    -- without a star there is a message about the field
    by_contra hExact
    have hNone : (r.classify? L t f).isNone = true := by
      rw [Option.isNone_iff_eq_none, ← Option.not_isSome_iff_eq_none, classify?_isSome]
      simp [hLeftOut t hAbout f hField]
    have hMessage := (mem_messages_effectOn_iff hPath).mpr
      ⟨Bool.eq_true_of_not_eq_false hExact, f, hField, hNone, rfl⟩
    rw [hMute t hType hAbout] at hMessage
    cases hMessage

/-- A rule that sweeps over value fields says nothing about any slot. -/
theorem SweepsValues.not_contributes (h : r.SweepsValues L) (s : Ruleset) : ¬r.Contributes L s := by
  obtain ⟨hPath, -, hKind, -, hValues⟩ := h
  rintro ⟨t, f, part, -, hAbout, hPart, -⟩
  have hClassifies : r.Classifies L t f := entryAt?_isSome_iff.mp (by simp [hPart])
  obtain ⟨hField, hEntry⟩ := (classifies_iff_of_pattern hPath).mp hClassifies
  have hType : t < L.count := Layout.lt_count_of_lt_fields (mem_fieldsMatching_iff.mp hField).1
  rw [classify?_isSome, hKind, hValues t hType hAbout f hField] at hEntry
  cases hEntry

/-- Nor is there a message about it. -/
theorem SweepsValues.not_warns (h : r.SweepsValues L) (options : BindOptions) :
    ¬r.Warns L options message := by
  obtain ⟨hPath, hStar, -, ⟨t, hType, hAbout, hMeets⟩, -⟩ := h
  rintro (⟨u, -, -, hMessage⟩ | ⟨-, hMiss, -⟩)
  · obtain ⟨hExact, -⟩ := (mem_messages_effectOn_iff hPath).mp hMessage
    rw [hStar] at hExact
    cases hExact
  · -- fitting a field is a hit, also where the field is left out
    refine hMiss ⟨t, hType, hAbout, ?_⟩
    simpa [effectOn, hPath, patternEffect] using hMeets

/-- Every message about a rule begins with its location. -/
theorem Warns.isNamedIn {options : BindOptions} (h : r.Warns L options message) :
    r.IsNamedIn message := by
  rcases h with ⟨t, -, -, hMessage⟩ | ⟨-, -, rfl⟩
  · cases hPath : r.path.pattern? with
    | some pattern =>
      obtain ⟨-, f, -, -, rfl⟩ := (mem_messages_effectOn_iff hPath).mp hMessage
      exact isNamedIn_valueMessage
    | none =>
      cases hBind : r.bindPath L t with
      | error fault =>
        rw [messages_effectOn_of_fault hPath hBind, List.mem_singleton] at hMessage
        exact hMessage ▸ isNamedIn_pathMessage fault
      | ok bound => simp [effectOn, hPath, pathEffect, hBind] at hMessage
  · exact isNamedIn_unmatchedMessage

end Rule

namespace Ruleset

/-- **No other rule is dropped in silence.** Bound into an empty log, with warnings about rules that
meet no field, each rule contributes to the ruleset, or a warning names it, or it sweeps over value
fields only; in the last case it does neither. -/
theorem contributes_or_reported (L : Layout) {rules : List Rule} {r : Rule} (hr : r ∈ rules) :
    (r.Contributes L (bind L rules ⟨true⟩).1 ∨ r.IsReportedIn (logInto {} L rules ⟨true⟩) ∨
      r.SweepsValues L) ∧
    (r.SweepsValues L → ¬r.Contributes L (bind L rules ⟨true⟩).1 ∧
      ∀ message, ¬r.Warns L ⟨true⟩ message) := by
  constructor
  · by_cases hWarns : ∃ message, r.Warns L ⟨true⟩ message
    · obtain ⟨message, hMessage⟩ := hWarns
      have hLogged : message ∈ (logInto {} L rules ⟨true⟩).messages bindPhase :=
        mem_messages_logInto_iff.mpr (.inr ⟨r, hr, hMessage⟩)
      exact .inr (.inl ⟨message, hLogged, hMessage.isNamedIn⟩)
    · by_cases hSays : ∃ t f, r.isAbout L t = true ∧ r.Classifies L t f
      · obtain ⟨t, f, hAbout, hClassifies⟩ := hSays
        exact .inl (Rule.contributes_of_classifies hr ⟨true⟩ hAbout hClassifies)
      · -- it meets a field, for else there were a warning
        have hHits : r.Hits L := by
          by_contra hMiss
          exact hWarns ⟨_, .inr ⟨rfl, hMiss, rfl⟩⟩
        refine .inr (.inr (Rule.sweepsValues_of_hits hHits ?_ ?_))
        · intro t f hAbout hClassifies
          exact hSays ⟨t, f, hAbout, hClassifies⟩
        · intro t hType hAbout
          by_contra hSome
          obtain ⟨message, hMessage⟩ := List.exists_mem_of_ne_nil _ hSome
          exact hWarns ⟨message, .inl ⟨t, hType, hAbout, hMessage⟩⟩
  · intro hSweeps
    exact ⟨hSweeps.not_contributes _, fun message => hSweeps.not_warns ⟨true⟩⟩

/-- A reference to a field that nodes do not have. -/
def missingRule : Rule :=
  nodeRule .weak [.field "missing"] 9

theorem contributes_or_reported_missingRule :
    missingRule ∈ steadyRules ++ [missingRule] ∧
      (missingRule.Contributes listLayout (bind listLayout (steadyRules ++ [missingRule]) ⟨true⟩).1 ∨
        missingRule.IsReportedIn (logInto {} listLayout (steadyRules ++ [missingRule]) ⟨true⟩)) := by
  have hr : missingRule ∈ steadyRules ++ [missingRule] := List.mem_append_cons_self
  refine ⟨hr, ?_⟩
  rcases (contributes_or_reported listLayout hr).1 with hSays | hNamed | ⟨-, -, hKind, -, -⟩
  · exact .inl hSays
  · exact .inr hNamed
  · -- a weak reference needs no pointer
    cases hKind

/-- A tag for what the names with a star hold; only a number has such a name. -/
def sweepRule : Rule :=
  nodeRule (.tag ["a"] false) [.field "le*"] 1

/-- A rule that is read from a rule file and then dropped without a word. -/
theorem sweepRule_not_reported :
    sweepRule.IsRead ∧ ¬sweepRule.Contributes listLayout (bind listLayout [sweepRule] ⟨true⟩).1 ∧
      ¬sweepRule.IsReportedIn (logInto {} listLayout [sweepRule] ⟨true⟩) := by
  have hStates : TextStates "\"Node\" TAG(a) \"le*\";" [.rule ⟨"Node", none, .exact "Node"⟩
      (.tag ["a"] false) ⟨[.field "le*"]⟩ 1] := by
    have hSpec : TypeSpec.parse "Node" = .ok ⟨"Node", none, .exact "Node"⟩ := rfl
    have hArgs : AreArguments [⟨.leftParen, 1⟩, ⟨.ident "a", 1⟩, ⟨.rightParen, 1⟩]
        (["a"].map .text) :=
      .values (.last (.ident "a"))
    refine ⟨[⟨.string "Node", 1⟩, ⟨.ident "TAG", 1⟩, ⟨.leftParen, 1⟩, ⟨.ident "a", 1⟩,
      ⟨.rightParen, 1⟩, ⟨.string "le*", 1⟩, ⟨.semicolon, 1⟩], by decide +kernel, ?_⟩
    exact .singleton (.rule hSpec hArgs (.tag (by simp) (by simp)) (by decide +kernel)
      (by simp [Verb.IsOfOneField]))
  have hPath : sweepRule.path.pattern? = some "le*" := rfl
  have hSweeps : sweepRule.SweepsValues listLayout :=
    .intro hPath (by decide +kernel) rfl ⟨0, by decide, by decide +kernel, by decide +kernel⟩
      (by decide +kernel)
  refine ⟨Rule.isRead_of_states hStates "a.rcl", hSweeps.not_contributes _, ?_⟩
  rintro ⟨message, hLogged, -⟩
  rcases mem_messages_logInto_iff.mp hLogged with hOld | ⟨r, hr, hWarns⟩
  · cases hOld
  · rw [List.mem_singleton.mp hr] at hWarns
    exact hSweeps.not_warns ⟨true⟩ hWarns

end Ruleset

end RefRules
