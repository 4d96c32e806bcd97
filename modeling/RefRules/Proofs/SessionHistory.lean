import RefRules.Proofs.Outcome
import RefRules.Proofs.StoreHistory
import RefRules.Proofs.Warnings
import RefRules.Session

/-!
# RefRules — what a session answers with

A session keeps what it has derived from the enabled rules until the groups change. Whatever was done
to it before, it answers with what the rules enabled now say. Its warnings are those of the binding
that it answers with: they are renewed when the rules are bound, and not when the options change.

Main results:

* `Session.after_groups` — an operation on the groups drops what is derived, or changes nothing;
* `Session.Coherent.run` — what is derived follows from the enabled rules, after any operations;
* `Session.isCurrent_run` — a session answers as if it bound the enabled rules now;
* `Session.Warned.after` — while a ruleset is kept, the warnings are those of its binding;
* `Session.warnings_after_call` — the warnings when a ruleset has been asked for.
-/

namespace RefRules

/-! ## Questions to a table of offsets -/

namespace OffsetTable

/-- A question to a table: the slots of an instance, or of an element of an array. -/
inductive Query where
  | object (type : Int) (base : Int32)
  | element (array : Nat) (base : Int32)

/-- The answer to a question, and the table with what was made for it. -/
def ask (o : OffsetTable) : Query → List OffsetSlot × OffsetTable
  | .object type base => o.objectSlots type base
  | .element array base => o.elementSlots array base

/-- The table after questions in turn. -/
def askAll (o : OffsetTable) (queries : List Query) : OffsetTable :=
  queries.foldl (fun o query => (o.ask query).2) o

/-- The table is one for a ruleset over a layout. -/
structure IsFor (o : OffsetTable) (L : Layout) (r : Ruleset) : Prop where
  layout : o.layout = L
  ruleset : o.ruleset = r

variable {o : OffsetTable} {L : Layout} {r : Ruleset}

theorem IsFor.table (h : o.IsFor L r) (t : Nat) : (o.table t).2.IsFor L r := by
  unfold OffsetTable.table
  split
  · exact h
  · exact ⟨h.layout, h.ruleset⟩

theorem IsFor.objectSlots (h : o.IsFor L r) (type : Int) (base : Int32) :
    (o.objectSlots type base).2.IsFor L r := by
  unfold OffsetTable.objectSlots
  split
  · exact h
  · exact h.table _

theorem IsFor.ask (h : o.IsFor L r) (query : Query) : (o.ask query).2.IsFor L r := by
  cases query with
  | object type base => exact h.objectSlots type base
  | element array base =>
    show (o.elementSlots array base).2.IsFor L r
    unfold OffsetTable.elementSlots
    split
    · exact h
    · split
      · exact h.objectSlots _ base
      · exact h

/-- No question changes what a table is for. -/
theorem IsFor.askAll (h : o.IsFor L r) (queries : List Query) : (o.askAll queries).IsFor L r := by
  induction queries generalizing o with
  | nil => exact h
  | cons query queries ih => exact ih (h.ask query)

end OffsetTable

/-! ## Enabled rules -/

/-- The rules of the enabled groups, in the order of the groups. -/
def GroupStore.activeRules (s : GroupStore) : List Rule :=
  (s.groups.filter (·.enabled)).flatMap (·.rules)

/-- The rules of the enabled groups can be asked for by name, since no other group has the name. -/
theorem GroupStore.enabledRules_eq {s : GroupStore} (h : s.names.Nodup) :
    s.enabledRules = s.activeRules := by
  rw [enabledRules, rulesFor, activeRules]
  congr 1
  refine List.filter_congr fun g hg => ?_
  rw [Bool.eq_iff_iff, List.contains_iff_mem]
  constructor
  · intro hName
    obtain ⟨g', hg', hSame⟩ := List.mem_map.mp hName
    obtain ⟨hMem, hEnabled⟩ := List.mem_filter.mp hg'
    rwa [List.inj_on_of_nodup_map h hMem hg hSame] at hEnabled
  · intro hEnabled
    exact List.mem_map_of_mem (List.mem_filter.mpr ⟨hg, hEnabled⟩)

/-- How rules are bound makes a difference to the messages only. -/
theorem Ruleset.bind_fst (L : Layout) (rules : List Rule) (options options' : BindOptions) :
    (bind L rules options).1 = (bind L rules options').1 := rfl

/-- The warnings of binding rules, in a log that was empty before. -/
def bindWarnings (L : Layout) (rules : List Rule) (options : BindOptions) : List String :=
  (({} : WarningLog).addAll bindPhase (Ruleset.bind L rules options).2).2.messages bindPhase

namespace Session

/-! ## Operations -/

/-- An operation on a session. The table of offsets can be asked further questions when it was asked
for. -/
inductive Step where
  | groups (step : GroupStore.Step)
  | setOptions (options : BindOptions)
  | ruleset
  | offsets (queries : List OffsetTable.Query)

/-- The session after an operation. -/
def after (s : Session) : Step → Session
  | .groups (.loadFile source path) => (s.loadFile source path).2
  | .groups (.loadText source path text) => (s.loadText source path text).2
  | .groups (.enable name) => (s.enable name).2
  | .groups (.disable name) => (s.disable name).2
  | .groups (.enableOnly names) => (s.enableOnly names).2
  | .setOptions options => s.withOptions options
  | .ruleset => s.ruleset.2
  | .offsets queries => (s.withOffsets fun table => ((), table.askAll queries)).2

/-- The session after operations in turn. -/
def run (s : Session) (steps : List Step) : Session :=
  steps.foldl after s

/-- The operation asks for the ruleset or for the table of offsets. -/
inductive Step.IsCall : Step → Prop
  | ruleset : IsCall .ruleset
  | offsets (queries : List OffsetTable.Query) : IsCall (.offsets queries)

/-- A session at its beginning: a new one, or one that settings ask for. -/
def IsStart (L : Layout) (s : Session) : Prop :=
  s = { layout := L } ∨ ∃ source config, ofConfig L source config = .ok s

section

variable {s : Session}

theorem load_fails {read : Outcome} {e : RuleError} (h : read.result = .error e) :
    (s.load read).2 = s := by
  simp [load, GroupStore.load, h]

theorem load_succeeds {read : Outcome} {parsed : ParsedRules} (h : read.result = .ok parsed) :
    (s.load read).2 = { s with groups := (s.groups.load read).2 }.invalidate := by
  simp [load, GroupStore.load, h]

/-- An operation on the groups drops what is derived, or there was nothing to change. -/
theorem after_groups (s : Session) (step : GroupStore.Step) :
    s.after (.groups step) = { s with groups := s.groups.after step }.invalidate ∨
      s.after (.groups step) = s ∧ s.groups.after step = s.groups := by
  have hLoad : ∀ read : Outcome,
      (s.load read).2 = { s with groups := (s.groups.load read).2 }.invalidate ∨
        (s.load read).2 = s ∧ (s.groups.load read).2 = s.groups := by
    intro read
    rcases hResult : read.result with e | parsed
    · refine .inr ⟨load_fails hResult, ?_⟩
      simp [GroupStore.load, hResult]
    · exact .inl (load_succeeds hResult)
  have hSet : ∀ name on,
      (s.changed (s.groups.setEnabled name on)).2 =
          { s with groups := (s.groups.setEnabled name on).2 }.invalidate ∨
        (s.changed (s.groups.setEnabled name on)).2 = s ∧
          (s.groups.setEnabled name on).2 = s.groups := by
    intro name on
    by_cases hName : s.groups.contains name = true
    · exact .inl (by simp [changed, GroupStore.setEnabled, hName])
    · refine .inr ⟨by simp [changed, GroupStore.setEnabled, hName], ?_⟩
      -- no group has the name, so each stays as it is
      have hNone : ∀ g ∈ s.groups.groups, g.name ≠ name := by
        simpa [GroupStore.contains] using hName
      rw [GroupStore.setEnabled]
      show GroupStore.mk _ = GroupStore.mk s.groups.groups
      rw [List.map_congr_left fun g hg => if_neg (hNone g hg), List.map_id']
  cases step with
  | loadFile source path => exact hLoad _
  | loadText source path text => exact hLoad _
  | enable name => exact hSet name true
  | disable name => exact hSet name false
  | enableOnly names => exact .inl rfl

/-- A load that fails changes nothing at all. -/
theorem after_of_fails {step : GroupStore.Step} (h : step.Fails) :
    s.after (.groups step) = s := by
  obtain ⟨read, e, hRead, hResult⟩ := h
  cases step with
  | enable | disable | enableOnly => cases hRead
  | loadFile | loadText =>
    obtain rfl := Option.some.inj hRead
    exact load_fails hResult

/-- A ruleset that is kept is the answer. -/
theorem ruleset_of_bound {r : Ruleset} (h : s.derived.ruleset? = some r) : s.ruleset = (r, s) := by
  simp only [ruleset, h]

/-- If none is kept, the rules are bound. -/
theorem ruleset_of_not_bound (h : s.derived.ruleset? = none) :
    s.ruleset = (s.bind.1.ruleset, s.bind.2) := by
  simp only [ruleset, h]

/-- Nothing but what is derived and the warnings change when the ruleset is asked for. -/
theorem ruleset_snd (s : Session) : s.ruleset.2.layout = s.layout ∧ s.ruleset.2.groups = s.groups ∧
    s.ruleset.2.options = s.options ∧ s.ruleset.2.derived.ruleset? = some s.ruleset.1 := by
  cases hKept : s.derived.ruleset? with
  | some r => simp only [ruleset_of_bound hKept, hKept, and_self]
  | none =>
    rw [ruleset_of_not_bound hKept]
    exact ⟨rfl, rfl, rfl, rfl⟩

/-- The table of offsets is one for the ruleset, and is kept. -/
theorem exists_offsetTable (hLayout : ∀ o, s.derived = .laidOut o → o.layout = s.layout) :
    ∃ o, s.offsetTable = (o, { s.ruleset.2 with derived := .laidOut o }) ∧
      o.IsFor s.layout s.ruleset.1 := by
  by_cases hKept : ∃ o, s.derived = .laidOut o
  · -- a table is kept, and with it its ruleset: nothing is made
    obtain ⟨o, hDerived⟩ := hKept
    have hRuleset : s.ruleset = (o.ruleset, s) := ruleset_of_bound (by rw [hDerived]; rfl)
    have hSame : { s with derived := .laidOut o } = s := by rw [← hDerived]
    refine ⟨o, ?_, hLayout o hDerived, by rw [hRuleset]⟩
    rw [hRuleset, hSame, offsetTable]
    simp only [hDerived]
  · -- no table is kept: a new one is made for the ruleset
    refine ⟨OffsetTable.fresh s.layout s.ruleset.1, ?_, rfl, rfl⟩
    rw [offsetTable, ← (ruleset_snd s).1]
    cases hDerived : s.derived with
    | laidOut o => exact absurd ⟨o, hDerived⟩ hKept
    | nothing | bound => rfl

end

/-! ## Coherence -/

/-- What is derived follows from the enabled rules. -/
structure Coherent (s : Session) : Prop where
  /-- The groups come from operations, so no two have the same name. -/
  stored : ∃ steps, s.groups = GroupStore.run {} steps
  ruleset : ∀ r, s.derived.ruleset? = some r →
    r = (Ruleset.bind s.layout s.groups.activeRules s.options).1
  layout : ∀ o, s.derived = .laidOut o → o.layout = s.layout

section

variable {s : Session}

theorem Coherent.enabledRules_eq (h : s.Coherent) : s.groups.enabledRules = s.groups.activeRules := by
  obtain ⟨steps, hGroups⟩ := h.stored
  exact GroupStore.enabledRules_eq (hGroups ▸ GroupStore.nodup_names_run steps)

/-- The answer is what the enabled rules say, whether it was kept or not. -/
theorem Coherent.ruleset_eq (h : s.Coherent) :
    s.ruleset.1 = (Ruleset.bind s.layout s.groups.activeRules s.options).1 := by
  cases hKept : s.derived.ruleset? with
  | some r => rw [ruleset_of_bound hKept, h.ruleset r hKept]
  | none =>
    rw [ruleset_of_not_bound hKept, ← h.enabledRules_eq]
    rfl

/-- Where the groups changed, nothing is derived. -/
theorem coherent_invalidate {groups : GroupStore} (h : ∃ steps, groups = GroupStore.run {} steps) :
    ({ s with groups := groups }.invalidate).Coherent :=
  ⟨h, nofun, nofun⟩

theorem Coherent.after_ruleset (h : s.Coherent) : s.ruleset.2.Coherent := by
  obtain ⟨hLayout, hGroups, hOptions, hKept⟩ := ruleset_snd s
  refine ⟨hGroups ▸ h.stored, ?_, ?_⟩
  · intro r hr
    rw [hLayout, hGroups, hOptions, ← h.ruleset_eq]
    exact Option.some.inj (hr.symm.trans hKept)
  · intro o ho
    rw [hLayout]
    -- a table is only there if it was there before
    cases hBefore : s.derived.ruleset? with
    | some r =>
      rw [ruleset_of_bound hBefore] at ho
      exact h.layout o ho
    | none =>
      rw [ruleset_of_not_bound hBefore] at ho
      cases ho

theorem Coherent.after_offsets (h : s.Coherent) (queries : List OffsetTable.Query) :
    (s.after (.offsets queries)).Coherent := by
  obtain ⟨o, hTable, hFor⟩ := exists_offsetTable h.layout
  obtain ⟨hStored, hRuleset, -⟩ := h.after_ruleset
  obtain ⟨hLayout, hGroups, hOptions, hKept⟩ := ruleset_snd s
  have hAsked := hFor.askAll queries
  have hAfter : s.after (.offsets queries) =
      { s.ruleset.2 with derived := .laidOut (o.askAll queries) } := by
    simp only [after, withOffsets, hTable]
  rw [hAfter]
  -- the questions leave the table one for the same ruleset
  refine ⟨hStored, ?_, ?_⟩
  · intro r hr
    obtain rfl : (o.askAll queries).ruleset = r := Option.some.inj hr
    exact hRuleset _ (hKept.trans (congrArg some hAsked.ruleset.symm))
  · intro o' ho'
    obtain rfl : o.askAll queries = o' := Derived.laidOut.inj ho'
    exact hAsked.layout.trans hLayout.symm

/-- One operation. -/
theorem Coherent.after (h : s.Coherent) (step : Step) : (s.after step).Coherent := by
  cases step with
  | groups step =>
    rcases after_groups s step with hDropped | ⟨hSame, -⟩
    · obtain ⟨steps, hGroups⟩ := h.stored
      rw [hDropped]
      refine coherent_invalidate ⟨steps ++ [step], ?_⟩
      rw [GroupStore.run_concat, hGroups]
    · rwa [hSame]
  | setOptions options =>
    -- a kept ruleset is what the rules say under any options
    refine ⟨h.stored, fun r hr => ?_, h.layout⟩
    exact (h.ruleset r hr).trans (Ruleset.bind_fst ..)
  | ruleset => exact h.after_ruleset
  | offsets queries => exact h.after_offsets queries

/-- Any operations. -/
theorem Coherent.run (h : s.Coherent) (steps : List Step) : (s.run steps).Coherent := by
  induction steps generalizing s with
  | nil => exact h
  | cons step steps ih => exact ih (h.after step)

theorem layout_after (s : Session) (hLayout : ∀ o, s.derived = .laidOut o → o.layout = s.layout)
    (step : Step) : (s.after step).layout = s.layout := by
  cases step with
  | groups step =>
    rcases after_groups s step with hDropped | ⟨hSame, -⟩
    · rw [hDropped]
      rfl
    · rw [hSame]
  | setOptions options => rfl
  | ruleset => exact (ruleset_snd s).1
  | offsets queries =>
    obtain ⟨o, hTable, -⟩ := exists_offsetTable hLayout
    simp only [Session.after, withOffsets, hTable]
    exact (ruleset_snd s).1

theorem Coherent.layout_run (h : s.Coherent) (steps : List Step) :
    (s.run steps).layout = s.layout := by
  induction steps generalizing s with
  | nil => rfl
  | cons step steps ih => exact (ih (h.after step)).trans (layout_after s h.layout step)

end

/-! ## Beginnings -/

/-- Settings load their rule files in turn. -/
theorem loadAll_eq_run {source : RuleSource} {files : List Path} {s s' : Session}
    (h : s.loadAll (files.map (RuleFile.load source)) = .ok s') :
    s' = s.run ((files.map (.loadFile source)).map .groups) := by
  induction files generalizing s with
  | nil => exact (Except.ok.inj h).symm
  | cons file files ih =>
    rw [List.map_cons, loadAll] at h
    split at h
    · next loaded hLoad =>
      have hAfter : loaded = s.after (.groups (.loadFile source file)) :=
        (congrArg Prod.snd hLoad).symm
      rw [hAfter] at h
      exact ih h
    · cases h

theorem derived_run_groups {s : Session} (h : s.derived = .nothing)
    (steps : List GroupStore.Step) : (s.run (steps.map .groups)).derived = .nothing := by
  induction steps generalizing s with
  | nil => exact h
  | cons step steps ih =>
    refine ih ?_
    rcases after_groups s step with hDropped | ⟨hSame, -⟩
    · rw [hDropped]
      rfl
    · rw [hSame, h]

/-- At its beginning a session has groups only. -/
theorem IsStart.coherent {L : Layout} {s : Session} (h : s.IsStart L) :
    s.Coherent ∧ s.layout = L ∧ s.derived = .nothing := by
  have hNew : ∀ options, ({ layout := L, options := options } : Session).Coherent :=
    fun _ => ⟨⟨[], rfl⟩, nofun, nofun⟩
  rcases h with rfl | ⟨source, config, hConfig⟩
  · exact ⟨hNew _, rfl, rfl⟩
  · -- settings load files first, each an operation on the groups
    obtain ⟨loaded, hLoad, rfl⟩ := map_eq_ok_iff.mp hConfig
    have hRun := loadAll_eq_run hLoad
    have hCoherent : loaded.Coherent := hRun ▸ (hNew _).run _
    have hLayout : loaded.layout = L := hRun ▸ (hNew _).layout_run _
    have hDerived : loaded.derived = .nothing := by
      rw [hRun]
      exact derived_run_groups rfl _
    unfold activate
    split
    · exact ⟨hCoherent, hLayout, hDerived⟩
    · -- the warnings about missing groups come on top of an operation on the groups
      obtain ⟨hStored, -, -⟩ := hCoherent.after (.groups (.enableOnly config.activeGroups))
      exact ⟨⟨hStored, nofun, nofun⟩, hLayout, rfl⟩

/-! ## Answers -/

/-- The session answers as if it bound the enabled rules now. -/
structure IsCurrent (s : Session) (L : Layout) : Prop where
  /-- The ruleset is what the rules of the enabled groups say. -/
  ruleset : s.ruleset.1 = (Ruleset.bind L s.groups.activeRules s.options).1
  /-- The table of offsets is one for this ruleset. -/
  offsets : s.offsetTable.1.IsFor L s.ruleset.1
  /-- A ruleset that is kept is this one. -/
  bound : s.isBound = true →
    s.derived.ruleset? = some (Ruleset.bind L s.groups.activeRules s.options).1
  /-- So is the one of a table that is kept. -/
  laidOut : ∀ o, s.derived = .laidOut o →
    o.IsFor L (Ruleset.bind L s.groups.activeRules s.options).1
  /-- A load that fails changes neither the groups nor what is derived. -/
  failed : ∀ step : GroupStore.Step, step.Fails → s.after (.groups step) = s

/-- **What is kept is what would be bound afresh.** After any operations on a new session, or on one
that settings ask for, it answers with what the rules of the groups enabled now say. It holds a
ruleset only while this is so, and a load that fails changes nothing. -/
theorem isCurrent_run {L : Layout} {start : Session} (hStart : start.IsStart L) (steps : List Step) :
    (start.run steps).IsCurrent L := by
  obtain ⟨hCoherent, hLayout, -⟩ := hStart.coherent
  have hRun := hCoherent.run steps
  have hRunLayout : (start.run steps).layout = L := (hCoherent.layout_run steps).trans hLayout
  obtain ⟨o, hTable, hFor⟩ := exists_offsetTable hRun.layout
  have hKept : ∀ r, (start.run steps).derived.ruleset? = some r →
      r = (Ruleset.bind L (start.run steps).groups.activeRules (start.run steps).options).1 :=
    hRunLayout ▸ hRun.ruleset
  refine ⟨hRunLayout ▸ hRun.ruleset_eq, ?_, ?_, ?_, fun step h => after_of_fails h⟩
  · -- the table that is answered with
    rw [hTable, ← hRunLayout]
    exact hFor
  · -- a ruleset that is kept
    intro hBound
    obtain ⟨r, hr⟩ := Option.isSome_iff_exists.mp hBound
    rw [hr, hKept r hr]
  · -- a table that is kept
    intro o' ho'
    exact ⟨(hRun.layout o' ho').trans hRunLayout, hKept _ (by rw [ho']; rfl)⟩

/-- Rules of two groups are bound, laid out and asked about. Then one group is disabled, and a text with
a fault is loaded. -/
def switchedSteps : List Step :=
  [.groups (.loadText (.ofFiles []) ⟨"s.rcl"⟩
      "\"Node\" OWNS \"next\";\n#debug\n\"Node\" TAG_IF_ZERO(end) \"len\";"),
    .ruleset, .offsets [.object 0 0, .element 1 8], .groups (.disable "debug"),
    .groups (.loadText (.ofFiles []) ⟨"t.rcl"⟩ "\"Node\""), .offsets [.object 0 16]]

theorem isCurrent_switchedSteps :
    IsStart Ruleset.listLayout { layout := Ruleset.listLayout } ∧
      (run { layout := Ruleset.listLayout } switchedSteps).IsCurrent Ruleset.listLayout ∧
      (run { layout := Ruleset.listLayout } switchedSteps).isBound = true := by
  have hStart : IsStart Ruleset.listLayout { layout := Ruleset.listLayout } := .inl rfl
  exact ⟨hStart, isCurrent_run hStart switchedSteps, by decide +kernel⟩

/-! ## Warnings -/

/-- The options under which the ruleset is bound that answers the next call, if those of the last one
were `o`. While a ruleset is kept these are the options of its binding, else the current ones. -/
def nextOptions (s : Session) (o : BindOptions) (step : Step) : BindOptions :=
  if s.isBound && (s.after step).isBound then o else (s.after step).options

/-- The same after operations in turn. -/
def bindingOptions (s : Session) (o : BindOptions) : List Step → BindOptions
  | [] => o
  | step :: steps => (s.after step).bindingOptions (s.nextOptions o step) steps

/-- The warnings are those of the binding under `o`, or nothing is bound and `o` are the options. -/
structure Warned (s : Session) (o : BindOptions) : Prop where
  coherent : s.Coherent
  bound : s.isBound = true →
    s.warnings.messages bindPhase = bindWarnings s.layout s.groups.activeRules o
  notBound : s.isBound = false → o = s.options

section

variable {s : Session} {o : BindOptions}

/-- Asking for the ruleset makes its warnings those of the phase. -/
theorem Warned.ruleset (h : s.Warned o) :
    s.ruleset.2.warnings.messages bindPhase =
      bindWarnings s.layout s.groups.activeRules o := by
  cases hKept : s.derived.ruleset? with
  | some r =>
    rw [ruleset_of_bound hKept]
    exact h.bound (by rw [isBound, hKept]; rfl)
  | none =>
    -- the rules are bound now, under the options that are set
    obtain rfl := h.notBound (by rw [isBound, hKept]; rfl)
    rw [ruleset_of_not_bound hKept, bindWarnings, ← h.coherent.enabledRules_eq]
    exact WarningLog.messages_renew ..

/-- Asking for the ruleset leaves the other phases alone. -/
theorem messages_ruleset_of_ne (s : Session) {phase : String} (hPhase : phase ≠ bindPhase) :
    s.ruleset.2.warnings.messages phase = s.warnings.messages phase := by
  cases hKept : s.derived.ruleset? with
  | some r => rw [ruleset_of_bound hKept]
  | none =>
    rw [ruleset_of_not_bound hKept]
    exact WarningLog.messages_renew_of_ne _ hPhase _

/-- Both calls do to the warnings and the groups what the first does. -/
theorem Coherent.after_call (h : s.Coherent) {call : Step} (hCall : call.IsCall) :
    (s.after call).warnings = s.ruleset.2.warnings ∧ (s.after call).groups = s.groups ∧
      (s.after call).options = s.options ∧ (s.after call).isBound = true := by
  obtain ⟨-, hGroups, hOptions, hKept⟩ := ruleset_snd s
  cases hCall with
  | ruleset => exact ⟨rfl, hGroups, hOptions, by rw [isBound, Session.after, hKept]; rfl⟩
  | offsets queries =>
    obtain ⟨o, hTable, -⟩ := exists_offsetTable h.layout
    simp only [Session.after, withOffsets, hTable]
    exact ⟨trivial, hGroups, hOptions, rfl⟩

/-- Once a ruleset was asked for, the warnings are those of its binding. -/
theorem Warned.after_call (h : s.Warned o) {call : Step} (hCall : call.IsCall) :
    (s.after call).Warned (s.nextOptions o call) := by
  obtain ⟨hWarnings, hGroups, hOptions, hBound⟩ := h.coherent.after_call hCall
  have hLayout := layout_after s h.coherent.layout call
  have hNext : s.nextOptions o call = o := by
    rw [nextOptions, hBound, Bool.and_true, hOptions]
    split
    · rfl
    · next hNot => exact (h.notBound (Bool.eq_false_iff.mpr hNot)).symm
  rw [hNext]
  refine ⟨h.coherent.after call, fun _ => ?_, fun hNot => ?_⟩
  · rw [hWarnings, hLayout, hGroups, h.ruleset]
  · rw [hBound] at hNot
    cases hNot

/-- One operation. -/
theorem Warned.after (h : s.Warned o) (step : Step) : (s.after step).Warned (s.nextOptions o step) := by
  cases step with
  | ruleset => exact h.after_call .ruleset
  | offsets queries => exact h.after_call (.offsets queries)
  | groups step =>
    refine ⟨h.coherent.after _, ?_, fun hNot => by rw [nextOptions, hNot, Bool.and_false]; rfl⟩
    intro hBound
    rcases after_groups s step with hDropped | ⟨hSame, -⟩
    · -- nothing is derived any more
      rw [hDropped] at hBound
      cases hBound
    · rw [hSame] at hBound
      rw [nextOptions, hSame, hBound]
      exact h.bound hBound
  | setOptions options =>
    refine ⟨h.coherent.after _, ?_, fun hNot => by rw [nextOptions, hNot, Bool.and_false]; rfl⟩
    intro hBound
    -- the ruleset is kept, and so are its warnings
    have hKept : s.isBound = true := hBound
    rw [nextOptions, hBound, hKept]
    exact h.bound hKept

/-- Any operations. -/
theorem Warned.run (h : s.Warned o) (steps : List Step) :
    (s.run steps).Warned (s.bindingOptions o steps) := by
  induction steps generalizing s o with
  | nil => exact h
  | cons step steps ih => exact ih (h.after step)

end

/-- Only two ways of binding differ in their warnings, if any do. -/
theorem bindWarnings_eq_iff {L : Layout} {rules : List Rule} {o o' : BindOptions} :
    bindWarnings L rules o = bindWarnings L rules o' ↔
      o = o' ∨ bindWarnings L rules ⟨true⟩ = bindWarnings L rules ⟨false⟩ := by
  obtain ⟨_ | _⟩ := o <;> obtain ⟨_ | _⟩ := o' <;> simp [eq_comm]

/-- **Warnings are those of the binding.** Right after a call that needs the ruleset, the warnings of
the bind phase are those of binding the enabled rules in an empty log, under the options in force when
the ruleset was bound; no other phase has changed. They are those under the current options exactly
when these are the same, or make no difference to the enabled rules. -/
theorem warnings_after_call {L : Layout} {start : Session} (hStart : start.IsStart L)
    (steps : List Step) {call : Step} (hCall : call.IsCall) :
    ((start.run steps).after call).warnings.messages bindPhase =
        bindWarnings L (start.run steps).groups.activeRules
          (start.bindingOptions start.options steps) ∧
      (∀ phase, phase ≠ bindPhase →
        ((start.run steps).after call).warnings.messages phase =
          (start.run steps).warnings.messages phase) ∧
      (((start.run steps).after call).warnings.messages bindPhase =
          bindWarnings L (start.run steps).groups.activeRules (start.run steps).options ↔
        start.bindingOptions start.options steps = (start.run steps).options ∨
          bindWarnings L (start.run steps).groups.activeRules ⟨true⟩ =
            bindWarnings L (start.run steps).groups.activeRules ⟨false⟩) := by
  obtain ⟨hCoherent, hLayout, hDerived⟩ := hStart.coherent
  have hNotBound : start.isBound = false := by rw [isBound, hDerived]; rfl
  have hWarned : start.Warned start.options :=
    ⟨hCoherent, fun hBound => absurd hBound (by rw [hNotBound]; decide), fun _ => rfl⟩
  have hRun := hWarned.run steps
  have hRunLayout : (start.run steps).layout = L := (hCoherent.layout_run steps).trans hLayout
  obtain ⟨hWarnings, -⟩ := hRun.coherent.after_call hCall
  have hMessages := hRun.ruleset
  rw [← hWarnings, hRunLayout] at hMessages
  refine ⟨hMessages, fun phase hPhase => ?_, ?_⟩
  · rw [hWarnings]
    exact messages_ruleset_of_ne _ hPhase
  · rw [hMessages, bindWarnings_eq_iff]

/-- A rule that meets no field is bound with such rules reported, and then the options change. -/
def staleSteps : List Step :=
  [.groups (.loadText (.ofFiles []) ⟨"s.rcl"⟩ "\"Node\" WEAK \"prev\";"), .ruleset,
    .setOptions ⟨false⟩]

/-- The ruleset is kept with the warning, although the enabled rules have none under the options. -/
example :
    ((run { layout := Ruleset.listLayout } staleSteps).after .ruleset).warnings.messages bindPhase =
        ["s.rcl:1: rule \"Node\" WEAK \"prev\"; never matched any field"] ∧
      bindWarnings Ruleset.listLayout
        (run { layout := Ruleset.listLayout } staleSteps).groups.activeRules
        (run { layout := Ruleset.listLayout } staleSteps).options = [] := by
  decide +kernel

end Session

end RefRules
