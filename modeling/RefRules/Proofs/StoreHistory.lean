import RefRules.Proofs.Imports
import RefRules.Rule.Groups

/-!
# RefRules — what a group store remembers

A store of groups is changed by loading rules and by enabling and disabling groups. What it holds in
the end can be told from the operations alone: the loads that succeeded give the groups with their
rules, and the last operation about a group that was there says whether it is enabled.

Main results:

* `RuleFile.Reads.group_eq` — a rule that is read says itself which group it is in;
* `GroupStore.add_listed`, `GroupStore.groups_after_recorded` — what one operation does to the
  groups;
* `GroupStore.groups_run` — the groups after any operations;
* `GroupStore.run_remembers` — a store holds what its operations say.
-/

namespace RefRules

/-! ## Groups of rules -/

namespace RuleFile

/-- A rule goes into the group that it names. -/
theorem Reads.group_eq {read : Path → Except FileError String} {depth : Nat} {f : Frame}
    {group : String} {statements : List Statement} {entries : List GroupEntry} {opened : List Path}
    (h : Reads read depth f group statements entries opened) {name : String} {r : Rule}
    (hEntry : (name, some r) ∈ entries) : r.group = name := by
  induction h with
  | done => cases hEntry
  | header _ ih => exact ih ((List.mem_cons.mp hEntry).resolve_left nofun)
  | rule _ ih =>
    rcases List.mem_cons.mp hEntry with hHere | hLater
    · -- the rule of this statement: its group is the one in force
      obtain ⟨rfl, hRule⟩ := Prod.mk.inj hHere
      rw [Option.some.inj hRule]
    · exact ih hLater
  | importFile _ _ _ _ ihInner ihRest =>
    rcases List.mem_append.mp hEntry with hInner | hRest
    · exact ihInner hInner
    · exact ihRest hRest

variable {source : RuleSource} {path : Path} {parsed : ParsedRules}

/-- Every rule of a text is in the group whose name it holds. -/
theorem group_eq_of_parse {text : String} (h : (parse source path text).result = .ok parsed) :
    ∀ e ∈ parsed, ∀ r ∈ e.2, r.group = e.1 := by
  obtain ⟨statements, hStates⟩ := exists_states_of_runText h
  rw [parse_of_states hStates] at h
  obtain ⟨entries, hReads, rfl⟩ := run_gives_iff.mp ⟨rfl, h⟩
  intro e he r hr
  rw [ParsedRules.collect_nil_eq_grouped] at he
  obtain ⟨group, -, rfl⟩ := List.mem_map.mp he
  obtain ⟨⟨name, rule?⟩, hEntry, hRule⟩ := List.mem_filterMap.mp hr
  simp only [Option.ite_none_right_eq_some] at hRule
  obtain ⟨rfl, rfl⟩ := hRule
  exact hReads.group_eq hEntry

/-- Every rule of a file is in the group whose name it holds. -/
theorem group_eq_of_load (h : (load source path).result = .ok parsed) :
    ∀ e ∈ parsed, ∀ r ∈ e.2, r.group = e.1 := by
  rw [load] at h
  rcases hText : source.read path with _ | text
  · rw [hText] at h
    cases h
  · rw [hText] at h
    exact group_eq_of_parse h

end RuleFile

/-- The rules that were read; none if reading failed. -/
def Outcome.gathered (o : Outcome) : ParsedRules :=
  match o.result with
  | .ok parsed => parsed
  | .error _ => []

/-- The rules of a group, in their order. -/
def ParsedRules.rulesOf (p : ParsedRules) (group : String) : List Rule :=
  p.flatMap fun e => if e.1 = group then e.2 else []

theorem ParsedRules.rulesOf_eq_nil {p : ParsedRules} {group : String} (h : group ∉ p.names) :
    p.rulesOf group = [] := by
  rw [rulesOf, List.flatMap_eq_nil_iff]
  intro e he
  rw [if_neg]
  rintro rfl
  exact h (List.mem_map_of_mem he)

namespace GroupStore

/-! ## Operations -/

/-- An operation on a store. -/
inductive Step where
  | loadFile (source : RuleSource) (path : Path)
  | loadText (source : RuleSource) (path : Path) (text : String)
  | enable (name : String)
  | disable (name : String)
  | enableOnly (names : List String)

/-- The store after an operation. -/
def after (s : GroupStore) : Step → GroupStore
  | .loadFile source path => (s.load (RuleFile.load source path)).2
  | .loadText source path text => (s.load (RuleFile.parse source path text)).2
  | .enable name => (s.enable name).2
  | .disable name => (s.disable name).2
  | .enableOnly names => (s.enableOnly names).2

/-- The store after operations in turn. -/
def run (s : GroupStore) (steps : List Step) : GroupStore :=
  steps.foldl after s

theorem run_concat (s : GroupStore) (steps : List Step) (step : Step) :
    s.run (steps ++ [step]) = (s.run steps).after step := by
  rw [run, List.foldl_append]
  rfl

namespace Step

/-- What a load reads. -/
def read? : Step → Option Outcome
  | loadFile source path => some (RuleFile.load source path)
  | loadText source path text => some (RuleFile.parse source path text)
  | enable _ | disable _ | enableOnly _ => none

/-- The operation is a load that fails. -/
def Fails (step : Step) : Prop :=
  ∃ read e, step.read? = some read ∧ read.result = .error e

/-- The rules that the operation brings, by groups. Only a load that succeeds brings some. -/
def parsed (step : Step) : ParsedRules :=
  (step.read?).elim [] Outcome.gathered

/-- Whether the operation enables a group, if it is about that group at all. -/
def setting? : Step → String → Option Bool
  | enable name, group => if name = group then some true else none
  | disable name, group => if name = group then some false else none
  | enableOnly names, group => some (names.contains group)
  | loadFile .., _ | loadText .., _ => none

/-- An operation that names a group is a load, and a load leaves the settings alone. -/
theorem setting?_eq_none {step : Step} {group : String} (h : group ∈ step.parsed.names) :
    step.setting? group = none := by
  cases step with
  | loadFile | loadText => rfl
  | enable | disable | enableOnly => cases h

end Step

/-! ## Histories -/

/-- The names of groups in the order in which loads came with them. -/
def mentions (steps : List Step) : List String :=
  ParsedRules.names (steps.flatMap Step.parsed)

/-- The rules that loads put into a group, in the order of the loads. -/
def loaded (steps : List Step) (group : String) : List Rule :=
  ParsedRules.rulesOf (steps.flatMap Step.parsed) group

/-- What the last operation about a group says, from the one on that first came with it. -/
def lastSetting? (steps : List Step) (group : String) : Option Bool :=
  ((steps.dropWhile fun step => group ∉ step.parsed.names).filterMap (·.setting? group)).getLast?

section

variable {steps : List Step} {step : Step} {group : String}

theorem mentions_concat : mentions (steps ++ [step]) = mentions steps ++ step.parsed.names := by
  simp [mentions, ParsedRules.names]

theorem loaded_concat :
    loaded (steps ++ [step]) group = loaded steps group ++ step.parsed.rulesOf group := by
  simp [loaded, ParsedRules.rulesOf]

theorem not_mem_mentions_iff :
    group ∉ mentions steps ↔
      (steps.dropWhile fun step => group ∉ step.parsed.names) = [] := by
  rw [List.dropWhile_eq_nil_iff, mentions, ParsedRules.names]
  simp only [List.mem_map, List.mem_flatMap, decide_eq_true_eq, ParsedRules.names]
  constructor
  · rintro hNone step hStep ⟨e, he, hName⟩
    exact hNone ⟨e, ⟨step, hStep, he⟩, hName⟩
  · rintro hNone ⟨e, ⟨step, hStep, he⟩, hName⟩
    exact hNone step hStep ⟨e, he, hName⟩

theorem lastSetting?_eq_none (h : group ∉ mentions steps) : lastSetting? steps group = none := by
  rw [lastSetting?, not_mem_mentions_iff.mp h]
  rfl

/-- The newest operation counts if it is about the group, and the group is there. -/
theorem lastSetting?_concat :
    lastSetting? (steps ++ [step]) group =
      if group ∈ mentions steps then (step.setting? group).or (lastSetting? steps group)
      else none := by
  rw [lastSetting?, List.dropWhile_append]
  by_cases hGroup : group ∈ mentions steps
  · have hNotNil : ¬(steps.dropWhile fun step => group ∉ step.parsed.names) = [] :=
      fun hNil => not_mem_mentions_iff.mpr hNil hGroup
    rw [if_pos hGroup, if_neg (by rwa [List.isEmpty_iff]), List.filterMap_append, lastSetting?]
    cases hSetting : step.setting? group <;> simp [hSetting]
  · -- nothing before counts, and the newest operation is about the group only if it is a load
    have hNil := not_mem_mentions_iff.mp hGroup
    rw [if_neg hGroup, if_pos (by rw [hNil]; rfl)]
    by_cases hNames : group ∈ step.parsed.names
    · simp [hNames, Step.setting?_eq_none hNames]
    · simp [hNames]

end

/-! ## Groups in a row -/

/-- The groups of these names, each once, with their rules and settings. -/
def listed (names : List String) (rules : String → List Rule) (enabled : String → Bool) :
    List RuleGroup :=
  names.eraseDups.map fun name => ⟨name, rules name, enabled name⟩

section

variable {names : List String} {rules rules' : String → List Rule} {enabled enabled' : String → Bool}

theorem listed_congr (hRules : ∀ name ∈ names, rules name = rules' name)
    (hEnabled : ∀ name ∈ names, enabled name = enabled' name) :
    listed names rules enabled = listed names rules' enabled' := by
  refine List.map_congr_left fun name hName => ?_
  have hMem := List.mem_eraseDups.mp hName
  rw [hRules name hMem, hEnabled name hMem]

/-- A group that is there gets rules at its end, another one begins behind all others. -/
theorem addTo_map (hNodup : names.Nodup) (group : String) (new : List Rule) :
    addTo group new (names.map fun name => ⟨name, rules name, enabled name⟩) =
      if group ∈ names then
        names.map fun name => ⟨name, if name = group then rules name ++ new else rules name,
          enabled name⟩
      else (names.map fun name => ⟨name, rules name, enabled name⟩) ++ [⟨group, new, true⟩] := by
  induction names with
  | nil => rfl
  | cons name names ih =>
    obtain ⟨hHead, hTail⟩ := List.nodup_cons.mp hNodup
    rw [List.map_cons, addTo]
    by_cases hSame : name = group
    · -- the group is the first one, and no other has its name
      subst hSame
      have hOthers : ∀ other ∈ names, ¬other = name := fun other hMem hEq => hHead (hEq ▸ hMem)
      simp only [if_true, List.mem_cons, true_or, List.map_cons, List.cons.injEq, true_and]
      exact List.map_congr_left fun other hMem => by simp [hOthers other hMem]
    · have hMem : group ∈ name :: names ↔ group ∈ names := by
        simp [List.mem_cons, Ne.symm hSame]
      rw [if_neg hSame, ih hTail]
      simp only [hMem, List.map_cons, hSame, if_false]
      split <;> rfl

/-- Rules for one group. Names that are not listed have no rules and count as enabled. -/
theorem addTo_listed (hOthers : ∀ name ∉ names, rules name = [] ∧ enabled name = true)
    (group : String) (new : List Rule) :
    addTo group new (listed names rules enabled) =
      listed (names ++ [group]) (fun name => if name = group then rules name ++ new else rules name)
        enabled := by
  unfold listed
  rw [addTo_map (ParsedRules.nodup_eraseDups names), ParsedRules.eraseDups_concat]
  simp only [List.mem_eraseDups]
  split
  · rfl
  · next hNew =>
    obtain ⟨hRules, hEnabled⟩ := hOthers group hNew
    rw [List.map_append, List.map_singleton, if_pos rfl, hRules, hEnabled, List.nil_append]
    congr 1
    refine List.map_congr_left fun name hName => ?_
    rw [if_neg]
    rintro rfl
    exact hNew (List.mem_eraseDups.mp hName)

/-- Loading rules that were read. -/
theorem add_listed (hOthers : ∀ name ∉ names, rules name = [] ∧ enabled name = true)
    (parsed : ParsedRules) :
    (add ⟨listed names rules enabled⟩ parsed).groups =
      listed (names ++ parsed.names) (fun name => rules name ++ parsed.rulesOf name) enabled := by
  unfold add
  induction parsed generalizing names rules with
  | nil => simp [ParsedRules.names, ParsedRules.rulesOf]
  | cons e parsed ih =>
    -- once the first group has its rules, the other names still have none
    have hOthers' : ∀ name ∉ names ++ [e.1],
        (if name = e.1 then rules name ++ e.2 else rules name) = [] ∧ enabled name = true := by
      intro name hName
      obtain ⟨hOld, hNew⟩ := not_or.mp (mt List.mem_append.mpr hName)
      rw [if_neg (fun hSame => hNew (List.mem_singleton.mpr hSame))]
      exact hOthers name hOld
    have hNames : names ++ [e.1] ++ ParsedRules.names parsed =
        names ++ ParsedRules.names (e :: parsed) := List.append_assoc ..
    rw [List.foldl_cons, addTo_listed hOthers, ih hOthers', hNames]
    refine listed_congr (fun name _ => ?_) fun _ _ => rfl
    by_cases hSame : name = e.1
    · simp [hSame, ParsedRules.rulesOf]
    · simp [hSame, Ne.symm hSame, ParsedRules.rulesOf]

end

/-! ## What is remembered -/

/-- A load puts what it read behind what is there; a load that fails has read nothing. -/
theorem load_snd (s : GroupStore) (read : Outcome) : (s.load read).2 = s.add read.gathered := by
  unfold load Outcome.gathered
  cases read.result <;> rfl

theorem after_of_fails {step : Step} (h : step.Fails) (s : GroupStore) : s.after step = s := by
  obtain ⟨read, e, hRead, hResult⟩ := h
  cases step with
  | enable | disable | enableOnly => cases hRead
  | loadFile | loadText =>
    obtain rfl := Option.some.inj hRead
    simp only [after, load_snd, Outcome.gathered, hResult]
    rfl

/-- The groups that a history leaves behind. -/
def recorded (steps : List Step) : List RuleGroup :=
  listed (mentions steps) (loaded steps) fun group => (lastSetting? steps group).getD true

section

variable {steps : List Step} {step : Step}

/-- A load at the end of a history brings its rules. -/
theorem add_recorded {read : Outcome} (hRead : step.read? = some read) :
    (add ⟨recorded steps⟩ read.gathered).groups = recorded (steps ++ [step]) := by
  have hParsed : step.parsed = read.gathered := by rw [Step.parsed, hRead]; rfl
  have hSetting : ∀ group, step.setting? group = none := by
    cases step with
    | loadFile | loadText => exact fun _ => rfl
    | enable | disable | enableOnly => cases hRead
  -- groups that are not there yet have no rules, and nothing was said about them
  have hOthers : ∀ group ∉ mentions steps,
      loaded steps group = [] ∧ (lastSetting? steps group).getD true = true := by
    intro group hGroup
    rw [lastSetting?_eq_none hGroup]
    exact ⟨ParsedRules.rulesOf_eq_nil hGroup, rfl⟩
  rw [recorded, add_listed hOthers, recorded, mentions_concat, hParsed]
  refine listed_congr (fun group _ => ?_) fun group _ => ?_
  · rw [loaded_concat, hParsed]
  · -- a load says nothing about settings, also not about those of a group that is new
    rw [lastSetting?_concat, hSetting, Option.none_or]
    split
    · rfl
    · next hGroup => rw [lastSetting?_eq_none hGroup]

/-- An operation that loads nothing sets the groups that it is about. -/
theorem set_recorded (hRead : step.read? = none) :
    (recorded steps).map (fun g => { g with enabled := (step.setting? g.name).getD g.enabled }) =
      recorded (steps ++ [step]) := by
  have hParsed : step.parsed = [] := by rw [Step.parsed, hRead]; rfl
  have hMentions : mentions (steps ++ [step]) = mentions steps := by
    rw [mentions_concat, hParsed]
    exact List.append_nil _
  rw [recorded, recorded, hMentions, listed, List.map_map]
  refine List.map_congr_left fun group hGroup => ?_
  have hLoaded : loaded (steps ++ [step]) group = loaded steps group := by
    rw [loaded_concat, hParsed]
    exact List.append_nil _
  have hSetting : (lastSetting? (steps ++ [step]) group).getD true =
      (step.setting? group).getD ((lastSetting? steps group).getD true) := by
    rw [lastSetting?_concat, if_pos (List.mem_eraseDups.mp hGroup), Option.getD_or]
  show RuleGroup.mk group (loaded steps group)
      ((step.setting? group).getD ((lastSetting? steps group).getD true)) =
    ⟨group, loaded (steps ++ [step]) group, (lastSetting? (steps ++ [step]) group).getD true⟩
  rw [hLoaded, hSetting]

/-- Enabling or disabling one group. -/
theorem setEnabled_recorded {name : String} {on : Bool} (hRead : step.read? = none)
    (hSetting : ∀ group, step.setting? group = if name = group then some on else none) :
    (setEnabled ⟨recorded steps⟩ name on).2.groups = recorded (steps ++ [step]) := by
  rw [← set_recorded hRead]
  refine List.map_congr_left fun g _ => ?_
  rw [hSetting]
  by_cases hName : g.name = name
  · rw [if_pos hName, if_pos hName.symm]
    rfl
  · rw [if_neg hName, if_neg (Ne.symm hName)]
    rfl

end

/-- One more operation, at the end of a history. -/
theorem groups_after_recorded (steps : List Step) (step : Step) :
    (after ⟨recorded steps⟩ step).groups = recorded (steps ++ [step]) := by
  cases step with
  | loadFile source path =>
    rw [after, load_snd]
    exact add_recorded rfl
  | loadText source path text =>
    rw [after, load_snd]
    exact add_recorded rfl
  | enable name => exact setEnabled_recorded rfl fun _ => rfl
  | disable name => exact setEnabled_recorded rfl fun _ => rfl
  | enableOnly names =>
    have hRead : (Step.enableOnly names).read? = none := rfl
    exact set_recorded hRead

/-- The groups after any operations are those of the history. -/
theorem groups_run (steps : List Step) : (run {} steps).groups = recorded steps := by
  induction steps using List.reverseRecOn with
  | nil => rfl
  | append_singleton steps step ih =>
    rw [run_concat, ← groups_after_recorded, ← ih]

theorem names_run (steps : List Step) : (run {} steps).names = (mentions steps).eraseDups := by
  rw [names, groups_run, recorded, listed, List.map_map]
  exact List.map_id' _

/-- No two groups have the same name. -/
theorem nodup_names_run (steps : List Step) : (run {} steps).names.Nodup := by
  rw [names_run]
  exact ParsedRules.nodup_eraseDups _

/-- The rules that loads put into a group name it. -/
theorem group_eq_of_mem_loaded {steps : List Step} {group : String} {r : Rule}
    (h : r ∈ loaded steps group) : r.group = group := by
  obtain ⟨e, he, hr⟩ := List.mem_flatMap.mp h
  obtain ⟨step, -, hParsed⟩ := List.mem_flatMap.mp he
  have hGroup : ∀ read, step.read? = some read → ∀ parsed, read.result = .ok parsed →
      ∀ e ∈ parsed, ∀ r ∈ e.2, r.group = e.1 := by
    intro read hRead parsed hResult
    cases step with
    | loadFile => exact RuleFile.group_eq_of_load (Option.some.inj hRead ▸ hResult)
    | loadText => exact RuleFile.group_eq_of_parse (Option.some.inj hRead ▸ hResult)
    | enable | disable | enableOnly => cases hRead
  rw [Step.parsed] at hParsed
  rcases hRead : step.read? with _ | read
  · rw [hRead] at hParsed
    cases hParsed
  rw [hRead, Option.elim_some, Outcome.gathered] at hParsed
  rcases hResult : read.result with error | parsed
  · rw [hResult] at hParsed
    cases hParsed
  rw [hResult] at hParsed
  split at hr
  · next hName => rw [hGroup read hRead parsed hResult e hParsed r hr, hName]
  · cases hr

/-- **A store holds what its operations say.** After any operations on a new store, the groups are
those that the loads came with, once each, in the order in which they first came. Each has the rules
that the loads put into it, in their order, and every rule names the group that it is in. A group is
enabled unless the last operation about it since it came disabled it. A load that fails changes
nothing. The rules for some names are those of the groups so called, in the order of the groups. -/
theorem run_remembers (steps : List Step) :
    (run {} steps).names = (mentions steps).eraseDups ∧ (run {} steps).names.Nodup ∧
      (∀ g ∈ (run {} steps).groups, g.rules = loaded steps g.name ∧
        (∀ r ∈ g.rules, r.group = g.name) ∧
        (g.enabled = true ↔
          lastSetting? steps g.name = none ∨ lastSetting? steps g.name = some true)) ∧
      (∀ step : Step, step.Fails → (run {} steps).after step = run {} steps) ∧
      ∀ active, (run {} steps).rulesFor active =
        ((mentions steps).eraseDups.filter (· ∈ active)).flatMap (loaded steps) := by
  refine ⟨names_run steps, nodup_names_run steps, ?_, fun step h => after_of_fails h _, ?_⟩
  · -- a group is one of those recorded
    intro g hg
    rw [groups_run] at hg
    obtain ⟨group, -, rfl⟩ := List.mem_map.mp hg
    refine ⟨rfl, fun r hr => group_eq_of_mem_loaded hr, ?_⟩
    show (lastSetting? steps group).getD true = true ↔ _
    cases lastSetting? steps group <;> simp
  · -- names are asked for, and the groups stay in their order
    intro active
    rw [rulesFor, groups_run, recorded, listed, List.filter_map, List.flatMap_map]
    have hActive : ∀ group : String, active.contains group = decide (group ∈ active) :=
      fun group => List.contains_eq_mem ..
    simp only [Function.comp_def, hActive]

/-- Two texts come with the same group, which is disabled in between; a third text cannot be read, and
an unknown group is enabled. The group keeps its setting, and gets the rules of both texts. -/
example :
    (run {} [.loadText (.ofFiles []) ⟨"a.rcl"⟩ "#ui\n\"A\" WEAK \"x\";", .disable "ui",
        .loadText (.ofFiles []) ⟨"b.rcl"⟩ "#ui\n\"B\" WEAK \"y\";",
        .loadText (.ofFiles []) ⟨"c.rcl"⟩ "#", .enable "audio"]).groups.map
        (fun g => (g.name, g.rules.map Rule.text, g.enabled)) =
      [("ui", ["\"A\" WEAK \"x\";", "\"B\" WEAK \"y\";"], false)] := by
  decide +kernel

end GroupStore

end RefRules
