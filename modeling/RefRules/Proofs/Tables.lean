import RefRules.Proofs.Classification
import RefRules.Proofs.Origins

/-!
# RefRules — how the tables of a ruleset agree

What rules say about a slot is kept in several places: marks and a weight, a location, three lists of
anchors and two of tags. Whoever walks a heap reads one of them and relies on the others. They agree
on every slot: a mark is set exactly when there is something in its list, and the selectors there can
be walked on the layout. Each rule says so of what it adds, and merging keeps it.

Main results:

* `Layout.passes_of_leads` — a path that is bound passes over declared fields and elements;
* `Rule.agrees_of_entryAt?` — what one rule says about a field agrees;
* `SlotEntry.Agrees.merge` — merging keeps the agreement;
* `Ruleset.agreesAt_bind` — the tables agree at every slot.
-/

namespace RefRules

/-! ## Selectors on a layout -/

namespace Layout

variable {L : Layout}

/-- Type `d` is `t` itself or one of its base types. -/
inductive IsAbove (L : Layout) (d : Nat) : Nat → Prop
  | self : IsAbove L d d
  | base {t b : Nat} (hBase : L.base? t = some b) (hAbove : IsAbove L d b) : IsAbove L d t

/-- From type `t` the hops pass over elements of arrays and over fields that are declared on the type
reached so far or on its base types, to type `last`. -/
inductive Passes (L : Layout) : Nat → List StaticHop → Nat → Prop
  | here {t : Nat} : Passes L t [] t
  | elements {t element last : Nat} {hops : List StaticHop} (hElement : L.element? t = some element)
      (hRest : Passes L element hops last) : Passes L t (.elements t :: hops) last
  | field {t d f last : Nat} {hops : List StaticHop} (hAbove : L.IsAbove d t)
      (hField : f < (L.fields d).length) (hRest : Passes L (L.fieldType d f) hops last) :
      Passes L t (.field d f :: hops) last

/-- The selector begins at field `f` of type `t`. It passes to a reference type, or it leaves all
other hops to the walk. -/
inductive IsAnchor (L : Layout) (t f : Nat) : Selector → Prop
  | fixed {hops : List StaticHop} {last : Nat} (hPasses : L.Passes (L.fieldType t f) hops last)
      (hReference : L.isValue last = false) : IsAnchor L t f ⟨.field t f :: hops, []⟩
  | dynamic {tail : List Hop} (hTail : tail ≠ []) : IsAnchor L t f ⟨[.field t f], tail⟩

theorem isAbove_of_findFrom {name : String} {fuel t d f : Nat}
    (h : L.findFrom name fuel t = some (d, f)) : L.IsAbove d t ∧ f < (L.fields d).length := by
  -- on the steps up the chain of base types
  induction fuel generalizing t with
  | zero => cases h
  | succ fuel ih =>
    rw [findFrom] at h
    split at h
    · next g hDeclared =>
      cases h
      exact ⟨.self, (findDeclared_eq_some_iff.mp hDeclared).inRange⟩
    · obtain ⟨b, hBase, hFound⟩ := Option.bind_eq_some_iff.mp h
      obtain ⟨hAbove, hField⟩ := ih hFound
      exact ⟨.base hBase hAbove, hField⟩

theorem passes_of_leads {t last : Nat} {hops : List Hop} {fixed : List StaticHop}
    (h : L.Leads t hops fixed last) : L.Passes t fixed last := by
  induction h with
  | here => exact .here
  | elements hElement _ ih => exact .elements hElement ih
  | field hFound _ ih =>
    obtain ⟨hAbove, hField⟩ := isAbove_of_findFrom hFound
    exact .field hAbove hField ih

theorem isAnchor_of_bindHops {dynamic : Bool} {t f : Nat} {hops : List Hop} {s : Selector}
    (hHops : hops ≠ []) (h : bindHops L dynamic t f hops = .ok s) : L.IsAnchor t f s := by
  cases dynamic with
  | true =>
    rw [bindHops_dynamic, Except.ok.injEq] at h
    exact h ▸ .dynamic hHops
  | false =>
    obtain ⟨fixed, last, hLeads, hReference, rfl⟩ := bindHops_eq_ok_iff.mp h
    exact .fixed (passes_of_leads hLeads) hReference

end Layout

/-! ## Tag lists -/

theorem mergeTags_concat (a b : List String) (tag : String) :
    mergeTags a (b ++ [tag]) =
      if tag ∈ mergeTags a b then mergeTags a b else mergeTags a b ++ [tag] := by
  simp [mergeTags]

theorem mem_mergeTags_iff {a b : List String} {tag : String} :
    tag ∈ mergeTags a b ↔ tag ∈ a ∨ tag ∈ b := by
  induction b using List.reverseRecOn with
  | nil => simp [mergeTags]
  | append_singleton b last ih =>
    rw [mergeTags_concat, List.mem_append, List.mem_singleton, ← or_assoc, ← ih]
    split
    · next hOld =>
      constructor
      · exact .inl
      · rintro (hMem | rfl)
        · exact hMem
        · exact hOld
    · rw [List.mem_append, List.mem_singleton]

theorem nodup_mergeTags {a : List String} (h : a.Nodup) (b : List String) : (mergeTags a b).Nodup := by
  induction b using List.reverseRecOn with
  | nil => exact h
  | append_singleton b last ih =>
    rw [mergeTags_concat]
    split
    · exact ih
    · next hNew => exact List.nodup_append.mpr ⟨ih, List.nodup_singleton last, by grind⟩

theorem mergeTags_eq_nil_iff {a b : List String} : mergeTags a b = [] ↔ a = [] ∧ b = [] := by
  simp only [List.eq_nil_iff_forall_not_mem, mem_mergeTags_iff, not_or]
  exact forall_and

/-! ## The entry of one rule -/

/-- A kind with tags for its condition has some. -/
def RuleKind.HasTags : RuleKind → Prop
  | .tagIf tags _ => tags ≠ []
  | _ => True

namespace SlotEntry

/-- Of the marks that stand for lists, those are set whose lists are not empty. -/
structure MarksLists (e : SlotEntry) (m : Marks) : Prop where
  weightAnchor : m.weightAnchor = true ↔ e.weights ≠ []
  tagAnchor : m.tagAnchor = true ↔ e.tags ≠ []
  conditionAnchor : m.conditionAnchor = true ↔ e.conditions ≠ []
  tagIfZero : m.tagIfZero = true ↔ e.zeroTags ≠ []
  tagIfNonzero : m.tagIfNonzero = true ↔ e.nonzeroTags ≠ []

/-- The tags of conditions stand in their lists once each. -/
structure HasDistinctTags (e : SlotEntry) : Prop where
  zeroTags : e.zeroTags.Nodup
  nonzeroTags : e.nonzeroTags.Nodup

/-- What the entry says about field `f` of type `t` agrees with itself and with the layout. -/
structure Agrees (e : SlotEntry) (L : Layout) (t f : Nat) : Prop where
  inRange : f < (L.fields t).length
  marksLists : e.MarksLists e.flags.marks
  anchors : ∀ s ∈ e.selectors, L.IsAnchor t f s

theorem MarksLists.merge {a b : SlotEntry} {m n : Marks} (ha : a.MarksLists m) (hb : b.MarksLists n) :
    (a.merge b).MarksLists (m ∪ n) where
  weightAnchor := by
    simp [SlotEntry.merge, Union.union, Marks.union, ha.weightAnchor, hb.weightAnchor, or_iff_not_imp_left]
  tagAnchor := by
    simp [SlotEntry.merge, Union.union, Marks.union, ha.tagAnchor, hb.tagAnchor, or_iff_not_imp_left]
  conditionAnchor := by
    simp [SlotEntry.merge, Union.union, Marks.union, ha.conditionAnchor, hb.conditionAnchor,
      or_iff_not_imp_left]
  tagIfZero := by
    simp [SlotEntry.merge, Union.union, Marks.union, ha.tagIfZero, hb.tagIfZero, mergeTags_eq_nil_iff,
      or_iff_not_imp_left]
  tagIfNonzero := by
    simp [SlotEntry.merge, Union.union, Marks.union, ha.tagIfNonzero, hb.tagIfNonzero,
      mergeTags_eq_nil_iff, or_iff_not_imp_left]

/-- The mark of value fields stands for no list. -/
theorem MarksLists.union_valueMark {e : SlotEntry} {m : Marks} (h : e.MarksLists m) (L : Layout)
    (t f : Nat) : e.MarksLists (m ∪ L.valueMark t f) := by
  obtain ⟨hWeight, hTag, hCondition, hZero, hNonzero⟩ := h
  constructor <;> simpa [Union.union, Marks.union, Layout.valueMark]

theorem Agrees.merge {a b : SlotEntry} {L : Layout} {t f : Nat} (ha : a.Agrees L t f)
    (hb : b.Agrees L t f) : (a.merge b).Agrees L t f where
  inRange := ha.inRange
  marksLists := ha.marksLists.merge hb.marksLists
  anchors := forall_selectors_merge ha.anchors hb.anchors

theorem HasDistinctTags.merge {a b : SlotEntry} (ha : a.HasDistinctTags) :
    (a.merge b).HasDistinctTags :=
  ⟨nodup_mergeTags ha.zeroTags _, nodup_mergeTags ha.nonzeroTags _⟩

end SlotEntry

namespace Rule

variable {r : Rule} {L : Layout} {t f : Nat} {e : SlotEntry}

/-- What a rule with a pattern says about a field. Only rules that need a pointer anchor the field
itself, and they leave out value fields. -/
theorem of_classify? (hSingle : r.path.isSingleField = true) (h : r.classify? L t f = some e) :
    (r.kind.HasTags → e.MarksLists r.slotMarks) ∧ e.HasDistinctTags ∧
      ∀ s ∈ e.selectors, L.IsAnchor t f s := by
  unfold classify? at h
  cases hKind : r.kind with
  | owns | weak | external =>
    simp only [hKind, Option.some.injEq] at h
    subst h
    refine ⟨fun _ => ?_, ⟨.nil, .nil⟩, by simp [SlotEntry.selectors]⟩
    constructor <;> simp [slotMarks, hKind, hSingle]
  | tagIf tags zero =>
    have hMerged : (mergeTags [] tags).Nodup := nodup_mergeTags .nil tags
    cases zero <;>
    · simp only [hKind, Option.some.injEq] at h
      subst h
      refine ⟨fun hSome => ?_, ?_, by simp [SlotEntry.selectors]⟩
      · -- no tag is lost, so there are some in the list
        have hList : mergeTags [] tags ≠ [] := by
          rw [Ne, mergeTags_eq_nil_iff, and_iff_right rfl]
          exact hSome
        constructor <;> simp [slotMarks, hKind, hList]
      · constructor <;> first | exact .nil | exact hMerged
  | tag | fuseWith =>
    simp only [hKind, Option.ite_none_left_eq_some, Option.some.injEq, Bool.not_eq_true] at h
    obtain ⟨hReference, rfl⟩ := h
    refine ⟨fun _ => ?_, ⟨.nil, .nil⟩, ?_⟩
    · constructor <;> simp [slotMarks, hKind]
    · simp only [SlotEntry.selectors, List.map_nil, List.map_cons, List.nil_append, List.append_nil,
        List.forall_mem_singleton]
      exact .fixed .here hReference

/-- What a rule with a path anchors: one selector, in the list of its kind. -/
theorem of_anchor {isValue : Bool} {s : Selector} (hSingle : r.path.isSingleField = false)
    (h : r.anchor isValue s = .ok e) :
    e.MarksLists r.slotMarks ∧ e.HasDistinctTags ∧ ∀ s' ∈ e.selectors, s' = s := by
  unfold anchor at h
  cases hKind : r.kind with
  | external | tagIf => simp [hKind] at h
  | _ =>
    simp only [hKind, Except.ok.injEq] at h
    subst h
    refine ⟨?_, ⟨.nil, .nil⟩, by simp [SlotEntry.selectors]⟩
    constructor <;> simp [slotMarks, hKind, hSingle]

/-- What a rule says about a field comes from its pattern, or from a path of more than one hop. -/
theorem cases_entryAt? (h : r.entryAt? L t f = some e) :
    r.path.isSingleField = true ∧ r.classify? L t f = some e ∨
      r.path.isSingleField = false ∧ ∃ s, L.IsAnchor t f s ∧
        r.anchor (L.isValueField t f) s = .ok e := by
  unfold entryAt? at h
  cases hPattern : r.path.pattern? with
  | some pattern =>
    simp only [hPattern, Option.ite_none_right_eq_some] at h
    exact .inl ⟨by simp [FieldPath.isSingleField, hPattern], h.2⟩
  | none =>
    cases hBind : r.bindPath L t with
    | error fault => simp [hPattern, hBind] at h
    | ok bound =>
      obtain ⟨g, e'⟩ := bound
      simp only [hPattern, hBind, Option.ite_none_right_eq_some, Option.some.injEq] at h
      obtain ⟨rfl, rfl⟩ := h
      obtain ⟨name, hops, s, hPath, -, hHops, hAnchor⟩ := bindPath_eq_ok_iff.mp hBind
      -- a path of a single name is a pattern
      have hMulti : hops ≠ [] := by
        rintro rfl
        rw [FieldPath.pattern?_eq_some_iff.mpr hPath] at hPattern
        cases hPattern
      refine .inr ⟨by simp [FieldPath.isSingleField, hPattern], s, ?_, hAnchor⟩
      exact Layout.isAnchor_of_bindHops hMulti hHops

theorem hasDistinctTags_of_entryAt? (h : r.entryAt? L t f = some e) : e.HasDistinctTags := by
  rcases cases_entryAt? h with ⟨hSingle, hClassify⟩ | ⟨hSingle, s, -, hAnchor⟩
  · exact (of_classify? hSingle hClassify).2.1
  · exact (of_anchor hSingle hAnchor).2.1

/-- A rule says something about fields that there are only. -/
theorem lt_fields_of_entryAt? (h : r.entryAt? L t f = some e) : f < (L.fields t).length := by
  have hClassifies : r.Classifies L t f := entryAt?_isSome_iff.mp (by simp [h])
  cases hClassifies with
  | pattern _ hField => exact hField
  | path _ _ hField => exact hField.inRange

/-- The selectors of one rule begin at their field and can be walked on the layout. -/
theorem isAnchor_of_entryAt? (h : r.entryAt? L t f = some e) :
    ∀ s ∈ e.selectors, L.IsAnchor t f s := by
  rcases cases_entryAt? h with ⟨hSingle, hClassify⟩ | ⟨hSingle, s, hSelector, hAnchor⟩
  · exact (of_classify? hSingle hClassify).2.2
  · intro s' hs'
    rw [(of_anchor hSingle hAnchor).2.2 s' hs']
    exact hSelector

/-- What one rule says about a field agrees. -/
theorem agrees_of_entryAt? (hTags : r.kind.HasTags) (h : r.entryAt? L t f = some e) :
    e.Agrees L t f := by
  refine ⟨lt_fields_of_entryAt? h, ?_, isAnchor_of_entryAt? h⟩
  -- the mark of value fields comes on top of those of the kind
  have hFlags : e.flags.marks = r.slotMarks ∪ L.valueMark t f := by
    rw [(isOf_of_entryAt? h).flags_eq]
  rcases cases_entryAt? h with ⟨hSingle, hClassify⟩ | ⟨hSingle, s, -, hAnchor⟩
  · exact hFlags ▸ ((of_classify? hSingle hClassify).1 hTags).union_valueMark L t f
  · exact hFlags ▸ (of_anchor hSingle hAnchor).1.union_valueMark L t f

theorem IsRead.hasTags (h : r.IsRead) : r.kind.HasTags := by
  obtain ⟨tokens, hStatement⟩ := h.exists_isStatement
  cases hStatement with
  | rule _ _ hKind =>
    generalize r.kind = kind at hKind
    cases hKind with
    | tagIfZero hSome | tagIfNonzero hSome => exact hSome
    | _ => exact trivial

end Rule

/-! ## Bound rulesets -/

namespace Ruleset

/-- The tables of a ruleset agree at a slot. -/
structure AgreesAt (r : Ruleset) (L : Layout) (slot : Slot) : Prop where
  /-- A slot is classified exactly when it has a location. -/
  classified_iff : slot ∈ r.entries.map (·.1) ↔ (r.location? slot).isSome = true
  /-- A classified slot is a field that there is. -/
  inRange : slot ∈ r.entries.map (·.1) →
    slot.type < L.count ∧ ∃ f, slot.field = some f ∧ f < (L.fields slot.type).length
  weightAnchor_iff : (r.flags slot).marks.weightAnchor = true ↔ r.weights slot ≠ []
  tagAnchor_iff : (r.flags slot).marks.tagAnchor = true ↔ r.tags slot ≠ []
  conditionAnchor_iff : (r.flags slot).marks.conditionAnchor = true ↔ r.conditions slot ≠ []
  tagIfZero_iff : (r.flags slot).marks.tagIfZero = true ↔ r.zeroTags slot ≠ []
  tagIfNonzero_iff : (r.flags slot).marks.tagIfNonzero = true ↔ r.nonzeroTags slot ≠ []
  nodup_zeroTags : (r.zeroTags slot).Nodup
  nodup_nonzeroTags : (r.nonzeroTags slot).Nodup
  /-- A slot is untraced exactly when it is classified and its field has a value type. -/
  untraced_iff : (r.flags slot).marks.untraced = true ↔
    slot ∈ r.entries.map (·.1) ∧ ∃ f, slot.field = some f ∧ L.isValueField slot.type f = true
  /-- The selectors of all anchors begin at the slot and can be walked on the layout. -/
  anchors : ∀ s ∈ r.selectors slot, ∃ f, slot.field = some f ∧ L.IsAnchor slot.type f s

variable {L : Layout} {rules : List Rule} {options : BindOptions} {t f : Nat} {e : SlotEntry}

theorem mem_entries_map_iff {r : Ruleset} {slot : Slot} :
    slot ∈ r.entries.map (·.1) ↔ (r.lookup? slot).isSome = true := by
  simp [mem_entries_iff, Option.isSome_iff_exists]

theorem agrees_of_bind (hTags : ∀ r ∈ rules, r.kind.HasTags)
    (h : lookup? (bind L rules options).1 ⟨t, some f⟩ = some e) : e.Agrees L t f :=
  bind_induction (P := fun e => e.Agrees L t f) (fun _ _ ha hb => ha.merge hb)
    (fun r hr _ hSays => Rule.agrees_of_entryAt? (hTags r hr) hSays) h

theorem hasDistinctTags_of_bind (h : lookup? (bind L rules options).1 ⟨t, some f⟩ = some e) :
    e.HasDistinctTags :=
  bind_induction (P := SlotEntry.HasDistinctTags) (fun _ _ ha _ => ha.merge)
    (fun _ _ _ hSays => Rule.hasDistinctTags_of_entryAt? hSays) h

/-- The selectors of a bound ruleset begin at a field that there is and can be walked on the layout. -/
theorem IsBoundOn.isAnchor {r : Ruleset} (h : r.IsBoundOn L) {s : Selector}
    (hs : s ∈ r.selectors ⟨t, some f⟩) : f < (L.fields t).length ∧ L.IsAnchor t f s := by
  cases hEntry : r.lookup? ⟨t, some f⟩ with
  | none => simp [selectors, hEntry] at hs
  | some e =>
    obtain ⟨rules, options, rfl⟩ := h
    have hField : f < (L.fields t).length :=
      bind_induction (P := fun _ => f < (L.fields t).length) (fun _ _ ha _ => ha)
        (fun _ _ _ hSays => Rule.lt_fields_of_entryAt? hSays) hEntry
    have hAll : ∀ s ∈ e.selectors, L.IsAnchor t f s :=
      bind_induction (P := fun e => ∀ s ∈ e.selectors, L.IsAnchor t f s)
        (fun _ _ ha hb => SlotEntry.forall_selectors_merge ha hb)
        (fun _ _ _ hSays => Rule.isAnchor_of_entryAt? hSays) hEntry
    exact ⟨hField, hAll s (by simpa [selectors, hEntry] using hs)⟩

/-- Where nothing is said, all tables are empty. -/
theorem agreesAt_of_lookup?_none {r : Ruleset} {slot : Slot} (h : r.lookup? slot = none) :
    r.AgreesAt L slot := by
  constructor <;> simp [mem_entries_map_iff, location?, flags, weights, tags, conditions, zeroTags,
    nonzeroTags, selectors, h, Flags.empty]

/-- **The tables of a ruleset agree.** Bound from rules that were read, over any layout, they agree at
every slot: marks with the lists that they stand for, locations with classifications, and selectors
with the layout. -/
theorem agreesAt_bind (hRead : ∀ r ∈ rules, r.IsRead) (options : BindOptions) (slot : Slot) :
    (bind L rules options).1.AgreesAt L slot := by
  obtain ⟨t, field⟩ := slot
  cases field with
  | none => exact agreesAt_of_lookup?_none rfl
  | some f =>
    cases hEntry : lookup? (bind L rules options).1 ⟨t, some f⟩ with
    | none => exact agreesAt_of_lookup?_none hEntry
    | some e =>
      obtain ⟨hInRange, hLists, hAnchors⟩ := agrees_of_bind (fun r hr => (hRead r hr).hasTags) hEntry
      obtain ⟨hZero, hNonzero⟩ := hasDistinctTags_of_bind hEntry
      have hUntraced := IsBoundOn.untraced ⟨rules, options, rfl⟩ hEntry
      -- a type that there is not has no fields
      have hType : t < L.count := by
        by_contra hType
        have hNone : L.types[t]? = none := List.getElem?_eq_none (Nat.le_of_not_lt hType)
        simp [Layout.fields, hNone] at hInRange
      constructor
      case inRange => exact fun _ => ⟨hType, f, rfl, hInRange⟩
      case weightAnchor_iff => simpa [flags, weights, hEntry] using hLists.weightAnchor
      case tagAnchor_iff => simpa [flags, tags, hEntry] using hLists.tagAnchor
      case conditionAnchor_iff => simpa [flags, conditions, hEntry] using hLists.conditionAnchor
      case tagIfZero_iff => simpa [flags, zeroTags, hEntry] using hLists.tagIfZero
      case tagIfNonzero_iff => simpa [flags, nonzeroTags, hEntry] using hLists.tagIfNonzero
      case nodup_zeroTags => simpa [zeroTags, hEntry] using hZero
      case nodup_nonzeroTags => simpa [nonzeroTags, hEntry] using hNonzero
      case classified_iff => simp [mem_entries_map_iff, location?, hEntry]
      case untraced_iff => simp [mem_entries_map_iff, flags, hEntry, hUntraced]
      case anchors =>
        intro s hs
        exact ⟨f, rfl, hAnchors s (by simpa [selectors, hEntry] using hs)⟩

/-- Nodes of a list, each with the next one and a number. -/
def listLayout : Layout where
  wordSize := .eight
  objectHeader := 16
  arrayHeader := 24
  types :=
    [⟨"", "Node", false, false, none, 16, [⟨"next", 0, 0, false, none⟩, ⟨"len", 1, 8, false, none⟩], none⟩,
      ⟨"", "Int", true, false, none, 4, [], none⟩]
  sound := by decide

/-- A node owns the next but one, and a number of zero has a tag. -/
def listRules : List Rule :=
  [⟨⟨"Node", none, .exact "Node"⟩, .owns 2 false, ⟨[.field "next", .field "next"]⟩, ⟨"a.rcl", 1⟩,
      anonymousGroup⟩,
    ⟨⟨"Node", none, .exact "Node"⟩, .tagIf ["end"] true, ⟨[.field "len"]⟩, ⟨"a.rcl", 1⟩,
      anonymousGroup⟩]

theorem agreesAt_listRules :
    (∀ r ∈ listRules, r.IsRead) ∧
      (bind listLayout listRules {}).1.AgreesAt listLayout ⟨0, some 0⟩ ∧
      (bind listLayout listRules {}).1.AgreesAt listLayout ⟨0, some 1⟩ := by
  have hSpec : TypeSpec.parse "Node" = .ok ⟨"Node", none, .exact "Node"⟩ := rfl
  have hOwns : TextStates "\"Node\" OWNS(2) \"next.next\";" [.rule ⟨"Node", none, .exact "Node"⟩
      (.owns 2 false) ⟨[.field "next", .field "next"]⟩ 1] := by
    refine ⟨[⟨.string "Node", 1⟩, ⟨.ident "OWNS", 1⟩, ⟨.leftParen, 1⟩, ⟨.integer 2, 1⟩,
      ⟨.rightParen, 1⟩, ⟨.string "next.next", 1⟩, ⟨.semicolon, 1⟩], by decide +kernel, ?_⟩
    have hArgs : AreArguments [⟨.leftParen, 1⟩, ⟨.integer 2, 1⟩, ⟨.rightParen, 1⟩] [.integer 2] :=
      .values (.last (.integer 2))
    exact .singleton (.rule hSpec hArgs (.ownsWeight (by decide) (by decide))
      (by decide +kernel) (by simp [Verb.IsOfOneField]))
  have hZero : TextStates "\"Node\" TAG_IF_ZERO(end) \"len\";" [.rule ⟨"Node", none, .exact "Node"⟩
      (.tagIf ["end"] true) ⟨[.field "len"]⟩ 1] := by
    refine ⟨[⟨.string "Node", 1⟩, ⟨.ident "TAG_IF_ZERO", 1⟩, ⟨.leftParen, 1⟩, ⟨.ident "end", 1⟩,
      ⟨.rightParen, 1⟩, ⟨.string "len", 1⟩, ⟨.semicolon, 1⟩], by decide +kernel, ?_⟩
    have hArgs : AreArguments [⟨.leftParen, 1⟩, ⟨.ident "end", 1⟩, ⟨.rightParen, 1⟩]
        (["end"].map .text) :=
      .values (.last (.ident "end"))
    exact .singleton (.rule hSpec hArgs (.tagIfZero (by simp) (by simp))
      (by decide +kernel) (fun _ => rfl))
  have hRead : ∀ r ∈ listRules, r.IsRead :=
    List.forall_mem_cons.mpr ⟨Rule.isRead_of_states hOwns "a.rcl",
      List.forall_mem_singleton.mpr (Rule.isRead_of_states hZero "a.rcl")⟩
  exact ⟨hRead, agreesAt_bind hRead {} _, agreesAt_bind hRead {} _⟩

end Ruleset

end RefRules
