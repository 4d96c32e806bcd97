import RefRules.Proofs.Grammar

/-!
# RefRules — imports

Reading a file carries its headers and rules out in turn, and those of an imported file in place of
the import. `Reads` says so without the rules gathered so far: it gives the entries of a file and the
files that are opened on the way. The same file is read on its own and below a file that imports it
under a group, and the entries are compared.

Main results:

* `RuleFile.run_gives_iff` — files are read exactly as `Reads` says;
* `RuleFile.Reads.under` — under a group a file does what it does on its own, in the renamed groups,
  unless a header names the anonymous group;
* `RuleFile.Reads.run_cycle` — an import of the importing file is a cycle, however deep it lies;
* `RuleFile.import_eq_under_iff` — a header and an import give the renamed groups of the imported file
  exactly when no header there names the anonymous group.
-/

namespace RefRules

/-! ## Reading files -/

/-- The tokens of the text are those of the statements. -/
def TextStates (text : String) (statements : List Statement) : Prop :=
  ∃ tokens, Token.scan text = .ok tokens ∧ AreStatements tokens statements

/-- The file can be read, and its text consists of the statements. -/
def FileStates (read : Path → Except FileError String) (path : Path) (statements : List Statement) :
    Prop :=
  ∃ text, read path = .ok text ∧ TextStates text statements

namespace RuleFile

/-- Where statements stand: the files that are being read, as normal paths, the file itself, and the
group that it is imported under. -/
structure Frame where
  stack : List Path
  path : Path
  outer : Option String

namespace Frame

/-- The file that an import in this one names. -/
def target (f : Frame) (file : String) : Path :=
  f.path.sibling ⟨file⟩

/-- The file `target`, imported under a group. -/
def enter (f : Frame) (target : Path) (group : String) : Frame :=
  ⟨target.normal :: f.stack, target, importGroup group⟩

/-- The same file, read on behalf of `below`. -/
def onto (f : Frame) (below : Path) (outer : Option String) : Frame :=
  ⟨f.stack ++ [below], f.path, outer⟩

end Frame

/-- `Reads read depth f group statements entries opened`: from the group in force, the statements of
a file are carried out with imports that lie at most `depth` deep. They do what `entries` say, and
open the files `opened`. -/
inductive Reads (read : Path → Except FileError String) :
    Nat → Frame → String → List Statement → List GroupEntry → List Path → Prop
  | done {depth f group} : Reads read depth f group [] [] []
  | header {depth f group name statements entries opened}
      (hRest : Reads read depth f (composeGroup f.outer name) statements entries opened) :
      Reads read depth f group (.header name :: statements)
        ((composeGroup f.outer name, none) :: entries) opened
  | rule {depth f group spec kind path line statements entries opened}
      (hRest : Reads read depth f group statements entries opened) :
      Reads read depth f group (.rule spec kind path line :: statements)
        ((group, some ⟨spec, kind, path, ⟨f.path.text, line⟩, group⟩) :: entries) opened
  | importFile {depth f group file line inner statements innerEntries entries innerOpened opened}
      (hStack : (f.target file).normal ∉ f.stack) (hFile : FileStates read (f.target file) inner)
      (hInner : Reads read depth (f.enter (f.target file) group) group inner innerEntries innerOpened)
      (hRest : Reads read (depth + 1) f group statements entries opened) :
      Reads read (depth + 1) f group (.importFile file line :: statements) (innerEntries ++ entries)
        (f.target file :: innerOpened ++ opened)

/-- What is read under the group of an import begins in that group. -/
theorem importGroup_getD (group : String) : (importGroup group).getD anonymousGroup = group := by
  unfold importGroup
  split
  · next hGroup => exact hGroup.symm
  · rfl

end RuleFile

/-- Reading opens these files and gives these rules. -/
structure Outcome.Gives (o : Outcome) (opened : List Path) (parsed : ParsedRules) : Prop where
  opened : o.opened = opened
  result : o.result = .ok parsed

namespace RuleFile

section

variable {importer : Path → Option String → ParsedRules → Outcome} {stack : List Path} {path : Path}
  {text : String} {outer : Option String} {rules parsed : ParsedRules}

theorem runText_of_states {statements : List Statement} (h : TextStates text statements) :
    runText importer stack path text outer rules =
      runStatements importer stack path outer none statements (outer.getD anonymousGroup) rules := by
  obtain ⟨tokens, hScan, hTokens⟩ := h
  rw [runText, hScan]
  simp only [runTokens, Statement.all_eq_iff.mpr hTokens]

theorem exists_states_of_runText
    (h : (runText importer stack path text outer rules).result = .ok parsed) :
    ∃ statements, TextStates text statements := by
  rw [runText] at h
  rcases hScan : Token.scan text with _ | tokens
  · rw [hScan] at h
    cases h
  · rw [hScan] at h
    simp only [runTokens] at h
    rcases hAll : Statement.all tokens with ⟨statements, _ | fault⟩
    · exact ⟨statements, tokens, hScan, Statement.all_eq_iff.mp hAll⟩
    · rw [hAll] at h
      exact absurd h (runStatements_fault_ne_ok _ _ _ _ _)

end

/-- Carries out the statements of a file, with imports that lie at most `depth` deep. -/
def run (source : RuleSource) (depth : Nat) (f : Frame) (group : String)
    (statements : List Statement) (rules : ParsedRules) : Outcome :=
  runStatements (readImport source depth f.stack) f.stack f.path f.outer none statements group rules

section

variable {source : RuleSource} {depth : Nat} {f : Frame} {group file : String} {line : Nat}
  {statements : List Statement} {rules parsed : ParsedRules} {opened : List Path}

theorem readImport_of_states {target : Path} (h : FileStates source.read target statements) :
    readImport source (depth + 1) f.stack target (importGroup group) rules =
      ⟨target :: (run source depth (f.enter target group) group statements rules).opened,
        (run source depth (f.enter target group) group statements rules).result⟩ := by
  obtain ⟨text, hText, hStates⟩ := h
  rw [readImport, hText]
  simp only [runText_of_states hStates, importGroup_getD]
  rfl

theorem exists_states_of_readImport {target : Path}
    (h : (readImport source (depth + 1) f.stack target (importGroup group) rules).result = .ok parsed) :
    ∃ statements, FileStates source.read target statements := by
  rw [readImport] at h
  rcases hText : source.read target with _ | text
  · rw [hText] at h
    cases h
  · rw [hText] at h
    obtain ⟨statements, hStates⟩ := exists_states_of_runText h
    exact ⟨statements, text, hText, hStates⟩

/-! ### Imports in place -/

theorem run_import_of_mem (hStack : (f.target file).normal ∈ f.stack) :
    run source depth f group (.importFile file line :: statements) rules =
      ⟨[], .error (.importCycle f.path line (f.target file))⟩ := by
  have hContains : f.stack.contains (f.path.sibling ⟨file⟩).normal = true :=
    List.contains_iff_mem.mpr hStack
  rw [run, runStatements, if_pos hContains]
  rfl

theorem run_import_of_not_mem (hStack : (f.target file).normal ∉ f.stack) :
    run source depth f group (.importFile file line :: statements) rules =
      match (readImport source depth f.stack (f.target file) (importGroup group) rules).result with
      | .error e =>
        ⟨(readImport source depth f.stack (f.target file) (importGroup group) rules).opened, .error e⟩
      | .ok gathered =>
        ⟨(readImport source depth f.stack (f.target file) (importGroup group) rules).opened ++
          (run source depth f group statements gathered).opened,
          (run source depth f group statements gathered).result⟩ := by
  have hContains : ¬f.stack.contains (f.path.sibling ⟨file⟩).normal = true :=
    fun hMem => hStack (List.contains_iff_mem.mp hMem)
  rw [run, runStatements, if_neg hContains]
  rfl

theorem run_import_gives_iff :
    (run source depth f group (.importFile file line :: statements) rules).Gives opened parsed ↔
      (f.target file).normal ∉ f.stack ∧ ∃ gathered innerOpened restOpened,
        (readImport source depth f.stack (f.target file) (importGroup group) rules).Gives innerOpened
          gathered ∧
        (run source depth f group statements gathered).Gives restOpened parsed ∧
        opened = innerOpened ++ restOpened := by
  by_cases hStack : (f.target file).normal ∈ f.stack
  · rw [run_import_of_mem hStack]
    constructor
    · intro h
      cases h.result
    · intro h
      exact absurd hStack h.1
  · rw [run_import_of_not_mem hStack, and_iff_right hStack]
    constructor
    · intro h
      rcases hInner : (readImport source depth f.stack (f.target file) (importGroup group)
        rules).result with _ | gathered
      · rw [hInner] at h
        cases h.result
      · rw [hInner] at h
        exact ⟨gathered, _, _, ⟨rfl, hInner⟩, ⟨rfl, h.result⟩, h.opened.symm⟩
    · rintro ⟨gathered, innerOpened, restOpened, hInner, hRest, rfl⟩
      rw [hInner.result]
      exact ⟨congrArg₂ (· ++ ·) hInner.opened hRest.opened, hRest.result⟩

/-- An error in an imported file is one of the import. -/
theorem result_run_import_of_error {inner : List Statement} {e : RuleError}
    (hStack : (f.target file).normal ∉ f.stack) (hFile : FileStates source.read (f.target file) inner)
    (hInner : (run source depth (f.enter (f.target file) group) group inner rules).result = .error e) :
    (run source (depth + 1) f group (.importFile file line :: statements) rules).result =
      .error e := by
  rw [run_import_of_not_mem hStack, readImport_of_states hFile, hInner]

/-- What stands behind an import goes on with the rules of the imported file. -/
theorem result_run_import_of_ok {inner : List Statement} {gathered : ParsedRules}
    (hStack : (f.target file).normal ∉ f.stack) (hFile : FileStates source.read (f.target file) inner)
    (hInner : (run source depth (f.enter (f.target file) group) group inner rules).result =
      .ok gathered) :
    (run source (depth + 1) f group (.importFile file line :: statements) rules).result =
      (run source (depth + 1) f group statements gathered).result := by
  rw [run_import_of_not_mem hStack, readImport_of_states hFile, hInner]

/-- Files are read exactly as `Reads` says, whatever rules there are before. -/
theorem run_gives_iff :
    (run source depth f group statements rules).Gives opened parsed ↔
      ∃ entries, Reads source.read depth f group statements entries opened ∧
        parsed = rules.collect entries := by
  constructor
  · intro h
    -- on the depth, and then on the statements: an imported file is read with less depth
    induction depth using Nat.strong_induction_on
      generalizing f group statements rules parsed opened with | _ depth ihDepth => ?_
    induction statements generalizing group rules opened with
    | nil =>
      obtain ⟨rfl, hResult⟩ := h
      cases hResult
      exact ⟨[], .done, rfl⟩
    | cons statement statements ih =>
      cases statement with
      | header name =>
        obtain ⟨entries, hRest, rfl⟩ := ih h
        exact ⟨_, .header hRest, rfl⟩
      | rule spec kind path line =>
        obtain ⟨entries, hRest, rfl⟩ := ih h
        exact ⟨_, .rule hRest, rfl⟩
      | importFile file line =>
        obtain ⟨hStack, gathered, _, restOpened, hImport, hRest, rfl⟩ := run_import_gives_iff.mp h
        cases depth with
        | zero => cases hImport.result
        | succ depth =>
          obtain ⟨inner, hFile⟩ := exists_states_of_readImport hImport.result
          rw [readImport_of_states hFile] at hImport
          obtain ⟨rfl, hInner⟩ := hImport
          obtain ⟨innerEntries, hReads, rfl⟩ := ihDepth depth (Nat.lt_succ_self depth) ⟨rfl, hInner⟩
          obtain ⟨entries, hReadsRest, rfl⟩ := ih hRest
          rw [← ParsedRules.collect_append]
          exact ⟨_, .importFile hStack hFile hReads hReadsRest, rfl⟩
  · rintro ⟨entries, h, rfl⟩
    induction h generalizing rules with
    | done => exact ⟨rfl, rfl⟩
    | header _ ih => exact ih
    | rule _ ih => exact ih
    | importFile hStack hFile _ _ ihInner ihRest =>
      rw [run_import_gives_iff, ParsedRules.collect_append, readImport_of_states hFile]
      exact ⟨hStack, _, _, _, ⟨congrArg (_ :: ·) ihInner.opened, ihInner.result⟩, ihRest, rfl⟩

end

/-! ## Files under a group -/

/-- The group that a file goes under below an import under `g`, if it goes under `outer` on its own. -/
def regroupOuter (g : String) (outer : Option String) : Option String :=
  importGroup (regroupName g (outer.getD anonymousGroup))

theorem regroupOuter_importGroup (g group : String) :
    regroupOuter g (importGroup group) = importGroup (regroupName g group) := by
  rw [regroupOuter, importGroup_getD]

theorem importGroup_ne (group : String) : importGroup group ≠ some anonymousGroup := by
  unfold importGroup
  split
  · exact (Option.some_ne_none anonymousGroup).symm
  · next hGroup =>
    intro hSame
    exact hGroup (Option.some.inj hSame)

/-- Headers name the renamed groups, but for a header that names the anonymous group. -/
theorem composeGroup_regroupOuter {g name : String} {outer : Option String}
    (hOuter : outer ≠ some anonymousGroup)
    (hName : g = anonymousGroup ∨ composeGroup outer name ≠ anonymousGroup) :
    composeGroup (regroupOuter g outer) name = regroupName g (composeGroup outer name) := by
  by_cases hGroup : g = anonymousGroup
  · -- nothing is renamed
    subst hGroup
    rw [regroupName_under_anonymousGroup, regroupOuter, regroupName_under_anonymousGroup]
    cases outer with
    | none => rfl
    | some o =>
      have ho : o ≠ anonymousGroup := fun hSame => hOuter (congrArg some hSame)
      rw [Option.getD_some, importGroup, if_neg ho]
  · have hName' := hName.resolve_left hGroup
    rw [regroupName_of_ne hGroup hName', regroupOuter]
    cases outer with
    | none =>
      rw [Option.getD_none, regroupName_anonymousGroup, importGroup, if_neg hGroup]
      rfl
    | some o =>
      have ho : o ≠ anonymousGroup := fun hSame => hOuter (congrArg some hSame)
      rw [Option.getD_some, regroupName_of_ne hGroup ho, importGroup,
        if_neg (prefixed_ne_anonymousGroup g o)]
      simp only [composeGroup, String.append_assoc]

section

variable {read : Path → Except FileError String} {depth : Nat} {f : Frame} {group : String}
  {statements : List Statement} {entries : List GroupEntry} {opened : List Path} {below : Path}

/-- With more depth files are read the same. -/
theorem Reads.mono (h : Reads read depth f group statements entries opened) {depth' : Nat}
    (hDepth : depth ≤ depth') : Reads read depth' f group statements entries opened := by
  induction h generalizing depth' with
  | done => exact .done
  | header _ ih => exact .header (ih hDepth)
  | rule _ ih => exact .rule (ih hDepth)
  | importFile hStack hFile _ _ ihInner ihRest =>
    obtain ⟨more, rfl⟩ : ∃ more, depth' = more + 1 := ⟨depth' - 1, by omega⟩
    exact .importFile hStack hFile (ihInner (Nat.le_of_succ_le_succ hDepth)) (ihRest hDepth)

theorem Frame.not_mem_onto {target : Path} {outer : Option String} (hStack : target.normal ∉ f.stack)
    (hBelow : below ≠ target.normal) : target.normal ∉ (f.onto below outer).stack := by
  intro hMem
  rcases List.mem_append.mp hMem with hOld | hNew
  · exact hStack hOld
  · exact hBelow (List.mem_singleton.mp hNew).symm

theorem not_mem_opened_iff {target : Path} {innerOpened : List Path} :
    below ∉ (target :: innerOpened ++ opened).map Path.normal ↔
      below ≠ target.normal ∧ below ∉ innerOpened.map Path.normal ∧
        below ∉ opened.map Path.normal := by
  rw [List.cons_append, List.map_cons, List.map_append, List.mem_cons, List.mem_append, not_or, not_or]

/-- An imported file of a renamed group goes under the renamed group. -/
theorem Frame.enter_onto (f : Frame) (below target : Path) (outer : Option String)
    (g group : String) :
    (f.onto below outer).enter target (regroupName g group) =
      (f.enter target group).onto below (regroupOuter g (importGroup group)) := by
  rw [regroupOuter_importGroup]
  rfl

/-- A file that does not open the one below it is read there too, under every group. -/
theorem Reads.exists_onto (h : Reads read depth f group statements entries opened)
    (hBelow : below ∉ opened.map Path.normal) (outer : Option String) (group' : String) :
    ∃ entries', Reads read depth (f.onto below outer) group' statements entries' opened := by
  induction h generalizing outer group' with
  | done => exact ⟨[], .done⟩
  | header _ ih =>
    obtain ⟨entries', hRest⟩ := ih hBelow outer (composeGroup outer _)
    exact ⟨_, .header hRest⟩
  | rule _ ih =>
    obtain ⟨entries', hRest⟩ := ih hBelow outer group'
    exact ⟨_, .rule hRest⟩
  | importFile hStack hFile _ _ ihInner ihRest =>
    obtain ⟨hTarget, hInner, hRest⟩ := not_mem_opened_iff.mp hBelow
    obtain ⟨innerEntries, hReadsInner⟩ := ihInner hInner (importGroup group') group'
    obtain ⟨restEntries, hReadsRest⟩ := ihRest hRest outer group'
    exact ⟨_, .importFile (Frame.not_mem_onto hStack hTarget) hFile hReadsInner hReadsRest⟩

/-- Under a group a file does what it does on its own, in the renamed groups, unless one of its
headers names the anonymous group. -/
theorem Reads.under {g : String} (h : Reads read depth f group statements entries opened)
    (hBelow : below ∉ opened.map Path.normal) (hOuter : f.outer ≠ some anonymousGroup)
    (hHeaders : g = anonymousGroup ∨ (anonymousGroup, none) ∉ entries) :
    Reads read depth (f.onto below (regroupOuter g f.outer)) (regroupName g group) statements
      (entries.map (GroupEntry.regroup g)) opened := by
  induction h with
  | done => exact .done
  | @header _ f _ name _ _ _ _ ih =>
    -- the entry of this header is not the one that is excluded
    simp only [List.mem_cons, not_or, Prod.mk.injEq, and_true] at hHeaders
    have hName : g = anonymousGroup ∨ composeGroup f.outer name ≠ anonymousGroup :=
      hHeaders.imp_right fun hNot => Ne.symm hNot.1
    have hRest := ih hBelow hOuter (hHeaders.imp_right fun hNot => hNot.2)
    rw [← composeGroup_regroupOuter hOuter hName] at hRest
    rw [List.map_cons, GroupEntry.regroup, ← composeGroup_regroupOuter hOuter hName]
    exact .header hRest
  | rule _ ih =>
    simp only [List.mem_cons, not_or] at hHeaders
    exact .rule (ih hBelow hOuter (hHeaders.imp_right fun hNot => hNot.2))
  | importFile hStack hFile _ _ ihInner ihRest =>
    obtain ⟨hTarget, hInner, hRest⟩ := not_mem_opened_iff.mp hBelow
    simp only [List.mem_append, not_or] at hHeaders
    -- the imported file goes under the group in force, which is renamed already
    have hReadsInner := ihInner hInner (importGroup_ne _) (hHeaders.imp_right fun hNot => hNot.1)
    have hReadsRest := ihRest hRest hOuter (hHeaders.imp_right fun hNot => hNot.2)
    rw [List.map_append]
    refine .importFile (Frame.not_mem_onto hStack hTarget) hFile ?_ hReadsRest
    rw [Frame.enter_onto]
    exact hReadsInner

/-- A header that names the anonymous group of a file names another one under a group. -/
theorem Reads.exists_header_under {g : String}
    (h : Reads read depth f group statements entries opened)
    (hBelow : below ∉ opened.map Path.normal) (hOuter : f.outer ≠ some anonymousGroup)
    (hGroup : g ≠ anonymousGroup) (hHeader : (anonymousGroup, none) ∈ entries) :
    ∃ entries', Reads read depth (f.onto below (regroupOuter g f.outer)) (regroupName g group)
        statements entries' opened ∧ (g ++ "." ++ anonymousGroup, none) ∈ entries' := by
  induction h with
  | done => cases hHeader
  | @header _ f _ name _ _ _ hReads ih =>
    by_cases hName : composeGroup f.outer name = anonymousGroup
    · -- this is the header: it can only stand in a file that goes under no group
      obtain ⟨entries', hRest⟩ := hReads.exists_onto hBelow (regroupOuter g f.outer)
        (composeGroup (regroupOuter g f.outer) name)
      refine ⟨_, .header hRest, ?_⟩
      cases hOuterCase : f.outer with
      | none =>
        rw [hOuterCase] at hName
        obtain rfl : name = anonymousGroup := hName
        rw [regroupOuter, Option.getD_none, regroupName_anonymousGroup, importGroup, if_neg hGroup]
        exact List.mem_cons_self
      | some outer =>
        rw [hOuterCase] at hName
        exact absurd hName (prefixed_ne_anonymousGroup outer name)
    · -- this header is renamed, and the one in question comes later
      have hLater : (anonymousGroup, none) ∈ _ := (List.mem_cons.mp hHeader).resolve_left
        fun hSame => hName (congrArg Prod.fst hSame).symm
      obtain ⟨entries', hRest, hMem⟩ := ih hBelow hOuter hLater
      rw [← composeGroup_regroupOuter hOuter (.inr hName)] at hRest
      exact ⟨_, .header hRest, List.mem_cons_of_mem _ hMem⟩
  | rule _ ih =>
    obtain ⟨entries', hRest, hMem⟩ := ih hBelow hOuter ((List.mem_cons.mp hHeader).resolve_left nofun)
    exact ⟨_, .rule hRest, List.mem_cons_of_mem _ hMem⟩
  | @importFile _ f group file _ _ _ _ _ _ _ hStack hFile hReadsInner hReadsRest ihInner ihRest =>
    obtain ⟨hTarget, hInner, hRest⟩ := not_mem_opened_iff.mp hBelow
    have hStack' : _ ∉ (f.onto below (regroupOuter g f.outer)).stack :=
      Frame.not_mem_onto hStack hTarget
    have hEnter := Frame.enter_onto f below (f.target file) (regroupOuter g f.outer) g group
    -- the header stands in the imported file or behind the import
    rcases List.mem_append.mp hHeader with hHeader | hHeader
    · obtain ⟨innerEntries, hInner', hMem⟩ := ihInner hInner (importGroup_ne _) hHeader
      obtain ⟨restEntries, hRest'⟩ := hReadsRest.exists_onto hRest (regroupOuter g f.outer)
        (regroupName g group)
      exact ⟨_, .importFile hStack' hFile (hEnter ▸ hInner') hRest', List.mem_append_left _ hMem⟩
    · obtain ⟨innerEntries, hInner'⟩ := hReadsInner.exists_onto hInner
        (regroupOuter g (importGroup group)) (regroupName g group)
      obtain ⟨restEntries, hRest', hMem⟩ := ihRest hRest hOuter hHeader
      exact ⟨_, .importFile hStack' hFile (hEnter ▸ hInner') hRest', List.mem_append_right _ hMem⟩

end

/-! ## Cycles -/

/-- An import of the file below is a cycle, however deep it lies. -/
theorem Reads.run_cycle {source : RuleSource} {depth : Nat} {f : Frame} {group : String}
    {statements : List Statement} {entries : List GroupEntry} {opened : List Path} {below : Path}
    (h : Reads source.read depth f group statements entries opened)
    (hBelow : below ∈ opened.map Path.normal) (outer : Option String) (group' : String)
    (rules : ParsedRules) :
    ∃ path line target, (run source depth (f.onto below outer) group' statements rules).result =
      .error (.importCycle path line target) := by
  induction h generalizing outer group' rules with
  | done => cases hBelow
  | header _ ih => exact ih hBelow outer _ _
  | rule _ ih => exact ih hBelow outer _ _
  | @importFile _ f group file line _ _ _ _ innerOpened _ hStack hFile hReadsInner hReadsRest ihInner
      ihRest =>
    by_cases hTarget : below = (f.target file).normal
    · -- the file below is imported here
      have hMem : ((f.onto below outer).target file).normal ∈ (f.onto below outer).stack :=
        List.mem_append_right _ (List.mem_singleton.mpr hTarget.symm)
      exact ⟨_, _, _, congrArg Outcome.result (run_import_of_mem hMem)⟩
    · have hNot : ((f.onto below outer).target file).normal ∉ (f.onto below outer).stack :=
        Frame.not_mem_onto hStack hTarget
      by_cases hInner : below ∈ innerOpened.map Path.normal
      · obtain ⟨path, line', target, hCycle⟩ := ihInner hInner (importGroup group') group' rules
        exact ⟨path, line', target, result_run_import_of_error hNot hFile hCycle⟩
      · -- the imported file is read to its end, and the cycle is in what follows
        obtain ⟨innerEntries, hReads⟩ := hReadsInner.exists_onto hInner (importGroup group') group'
        have hGathered := (run_gives_iff.mpr ⟨innerEntries, hReads, rfl⟩ :
          (run source _ _ group' _ rules).Gives _ _).result
        rw [result_run_import_of_ok hNot hFile hGathered]
        refine ihRest ?_ outer group' _
        by_contra hRest
        exact not_mem_opened_iff.mpr ⟨hTarget, hInner, hRest⟩ hBelow

/-! ## Imports under headers -/

/-- A file that is read on its own. -/
def Frame.start (path : Path) : Frame :=
  ⟨[path.normal], path, none⟩

/-- On its own the file does what `entries` say, and opens the files `opened`. -/
def ReadsAlone (source : RuleSource) (path : Path) (entries : List GroupEntry) (opened : List Path) :
    Prop :=
  ∃ statements, FileStates source.read path statements ∧
    Reads source.read source.depth (.start path) anonymousGroup statements entries opened

/-- A header names the anonymous group of the file. -/
def NamesAnonymous (source : RuleSource) (path : Path) : Prop :=
  ∃ entries opened, ReadsAlone source path entries opened ∧ (anonymousGroup, none) ∈ entries

section

variable {source : RuleSource} {path : Path} {statements : List Statement} {parsed : ParsedRules}

theorem parse_of_states {text : String} (h : TextStates text statements) :
    parse source path text = run source source.depth (.start path) anonymousGroup statements [] :=
  runText_of_states h

theorem exists_readsAlone_of_load (h : (load source path).result = .ok parsed) :
    ∃ entries opened, ReadsAlone source path entries opened := by
  rw [load] at h
  rcases hText : source.read path with _ | text
  · rw [hText] at h
    cases h
  · rw [hText] at h
    obtain ⟨statements, hStates⟩ := exists_states_of_runText h
    simp only [parse_of_states hStates] at h
    obtain ⟨entries, hReads, -⟩ := run_gives_iff.mp ⟨rfl, h⟩
    exact ⟨entries, _, statements, ⟨text, hText, hStates⟩, hReads⟩

theorem load_of_readsAlone {entries : List GroupEntry} {opened : List Path}
    (h : ReadsAlone source path entries opened) :
    (load source path).Gives (path :: opened) (.collect [] entries) := by
  obtain ⟨statements, ⟨text, hText, hStates⟩, hReads⟩ := h
  obtain ⟨hOpened, hResult⟩ := run_gives_iff.mpr ⟨entries, hReads, rfl⟩
  rw [load, hText]
  simp only [parse_of_states hStates]
  exact ⟨congrArg (path :: ·) hOpened, hResult⟩

/-- An import that is no cycle, in a file of its own, does what the imported file does. -/
theorem reads_import {depth : Nat} {main : Path} {group file : String} (line : Nat)
    {entries : List GroupEntry} {opened : List Path} (hDepth : source.depth < depth)
    (hTarget : main.normal ≠ (main.sibling ⟨file⟩).normal)
    (hFile : FileStates source.read (main.sibling ⟨file⟩) statements)
    (hReads : Reads source.read source.depth ((Frame.start main).enter (main.sibling ⟨file⟩) group)
      group statements entries opened) :
    Reads source.read depth (.start main) group [.importFile file line] entries
      (main.sibling ⟨file⟩ :: opened) := by
  obtain ⟨more, rfl⟩ : ∃ more, depth = more + 1 := ⟨depth - 1, by omega⟩
  have hStack : ((Frame.start main).target file).normal ∉ (Frame.start main).stack := by
    intro hMem
    exact hTarget (List.mem_singleton.mp hMem).symm
  have hInner := hReads.mono (Nat.le_of_lt_succ hDepth)
  have hImport : Reads source.read (more + 1) (.start main) group [.importFile file line]
      (entries ++ []) ((Frame.start main).target file :: opened ++ []) :=
    .importFile hStack hFile hInner .done
  rwa [List.append_nil, List.append_nil] at hImport

theorem start_onto (main target : Path) (g : String) :
    (Frame.start target).onto main.normal (regroupOuter g none) =
      (Frame.start main).enter target g := by
  rw [regroupOuter, Option.getD_none, regroupName_anonymousGroup]
  rfl

/-- A file that is read on its own without opening `main` is read there too, in the renamed groups. -/
theorem reads_under_start {main target : Path} {g : String} {entries : List GroupEntry}
    {opened : List Path}
    (h : Reads source.read source.depth (.start target) anonymousGroup statements entries opened)
    (hBelow : main.normal ∉ opened.map Path.normal)
    (hHeaders : g = anonymousGroup ∨ (anonymousGroup, none) ∉ entries) :
    Reads source.read source.depth ((Frame.start main).enter target g) g statements
      (entries.map (GroupEntry.regroup g)) opened := by
  have hOuter : (Frame.start target).outer ≠ some anonymousGroup := nofun
  have hUnder := h.under hBelow hOuter hHeaders
  rwa [regroupName_anonymousGroup, show (Frame.start target).outer = none from rfl, start_onto]
    at hUnder

variable {depth : Nat} {main : Path} {g file text : String} {line : Nat}

theorem parse_header_import (hDepth : source.depth < depth)
    (hText : TextStates text [.header g, .importFile file line])
    (hTarget : main.normal ≠ (main.sibling ⟨file⟩).normal)
    (hFile : FileStates source.read (main.sibling ⟨file⟩) statements) {entries : List GroupEntry}
    {opened : List Path}
    (hReads : Reads source.read source.depth ((Frame.start main).enter (main.sibling ⟨file⟩) g) g
      statements entries opened) :
    (parse { source with depth } main text).result = .ok (.collect [] ((g, none) :: entries)) := by
  have hImport := reads_import line hDepth hTarget hFile hReads
  have hMain : Reads ({ source with depth } : RuleSource).read depth (.start main) anonymousGroup
      [.header g, .importFile file line] ((g, none) :: entries) _ := .header hImport
  rw [parse_of_states hText]
  exact (run_gives_iff.mpr ⟨_, hMain, rfl⟩).result

theorem parse_header_import_cycle (hDepth : source.depth < depth)
    (hText : TextStates text [.header g, .importFile file line]) {entries : List GroupEntry}
    {opened : List Path} (hReads : ReadsAlone source (main.sibling ⟨file⟩) entries opened)
    (hCycle : main.normal ∈ (main.sibling ⟨file⟩ :: opened).map Path.normal) :
    ∃ path at' target, (parse { source with depth } main text).result =
      .error (.importCycle path at' target) := by
  obtain ⟨more, rfl⟩ : ∃ more, depth = more + 1 := ⟨depth - 1, by omega⟩
  obtain ⟨statements, hFile, hReads⟩ := hReads
  rw [parse_of_states hText]
  show ∃ path at' target, (run _ _ (.start main) g [.importFile file line] _).result = _
  by_cases hTarget : main.normal = (main.sibling ⟨file⟩).normal
  · -- the file imports itself
    have hMem : ((Frame.start main).target file).normal ∈ (Frame.start main).stack :=
      List.mem_singleton.mpr hTarget.symm
    exact ⟨_, _, _, congrArg Outcome.result (run_import_of_mem hMem)⟩
  · have hNot : ((Frame.start main).target file).normal ∉ (Frame.start main).stack :=
      fun hMem => hTarget (List.mem_singleton.mp hMem).symm
    have hDeep := (List.mem_cons.mp hCycle).resolve_left hTarget
    have hMore : Reads ({ source with depth := more + 1 } : RuleSource).read more
        (.start (main.sibling ⟨file⟩)) anonymousGroup statements entries opened :=
      hReads.mono (Nat.le_of_lt_succ hDepth)
    obtain ⟨path, at', target, hInner⟩ := hMore.run_cycle hDeep (regroupOuter g none) g _
    rw [start_onto] at hInner
    exact ⟨path, at', target, result_run_import_of_error hNot hFile hInner⟩

section

variable {entries : List GroupEntry} {opened : List Path}

/-- Under the header the groups are those of the file, renamed. -/
theorem parse_header_import_of_not_mem (hDepth : source.depth < depth)
    (hText : TextStates text [.header g, .importFile file line])
    (hReads : ReadsAlone source (main.sibling ⟨file⟩) entries opened)
    (hNoCycle : main.normal ∉ (main.sibling ⟨file⟩ :: opened).map Path.normal)
    (hHeaders : g = anonymousGroup ∨ (anonymousGroup, none) ∉ entries) :
    (parse { source with depth } main text).result = .ok (.under g (.collect [] entries)) := by
  obtain ⟨hTarget, hInner⟩ := not_or.mp (mt List.mem_cons.mpr hNoCycle)
  obtain ⟨statements, hFile, hReads⟩ := hReads
  rw [ParsedRules.under_collect]
  exact parse_header_import hDepth hText hTarget hFile (reads_under_start hReads hInner hHeaders)

/-- Under no header the groups are those of the file. -/
theorem parse_import (hDepth : source.depth < depth)
    (hText : TextStates text [.importFile file line])
    (hReads : ReadsAlone source (main.sibling ⟨file⟩) entries opened)
    (hNoCycle : main.normal ∉ (main.sibling ⟨file⟩ :: opened).map Path.normal) :
    (parse { source with depth } main text).result = .ok (.collect [] entries) := by
  obtain ⟨hTarget, hInner⟩ := not_or.mp (mt List.mem_cons.mpr hNoCycle)
  obtain ⟨statements, hFile, hReads⟩ := hReads
  -- no header at all is like a header of the anonymous group, which renames nothing
  have hSame := reads_under_start hReads hInner (.inl (Eq.refl anonymousGroup))
  rw [funext GroupEntry.regroup_anonymousGroup, List.map_id'] at hSame
  have hImport := reads_import line hDepth hTarget hFile hSame
  have hMain : Reads ({ source with depth } : RuleSource).read depth (.start main) anonymousGroup
      [.importFile file line] entries _ := hImport
  rw [parse_of_states hText]
  exact (run_gives_iff.mpr ⟨entries, hMain, rfl⟩).result

/-- A header that names the anonymous group of the file gives another group under the header. -/
theorem parse_header_import_of_mem (hDepth : source.depth < depth)
    (hText : TextStates text [.header g, .importFile file line])
    (hReads : ReadsAlone source (main.sibling ⟨file⟩) entries opened)
    (hNoCycle : main.normal ∉ (main.sibling ⟨file⟩ :: opened).map Path.normal)
    (hGroup : g ≠ anonymousGroup) (hHeader : (anonymousGroup, none) ∈ entries) :
    ∃ given, (parse { source with depth } main text).result = .ok given ∧
      g ++ "." ++ anonymousGroup ∈ given.names := by
  obtain ⟨hTarget, hInner⟩ := not_or.mp (mt List.mem_cons.mpr hNoCycle)
  obtain ⟨statements, hFile, hReads⟩ := hReads
  have hOuter : (Frame.start (main.sibling ⟨file⟩)).outer ≠ some anonymousGroup := nofun
  obtain ⟨entries', hUnder, hMem⟩ := hReads.exists_header_under hInner hOuter hGroup hHeader
  rw [regroupName_anonymousGroup] at hUnder
  have hResult := parse_header_import hDepth hText hTarget hFile (start_onto main _ g ▸ hUnder)
  exact ⟨_, hResult, ParsedRules.mem_names_collect (List.mem_cons_of_mem _ hMem)⟩

end

end

/-- **Imports rename groups.** Let a file load on its own. A text of a header and an import of it
fails with a cycle if the file opens the importing one. Otherwise it is accepted, and it gives the
groups of the imported file under the header exactly when the header is the anonymous group or no
header of the imported file names the anonymous group; the import alone always gives the groups as
they are. The bound on the depth of imports only has to leave room for the one import more. -/
theorem import_eq_under_iff {source : RuleSource} {depth : Nat} {main : Path} {file : String}
    {parsed : ParsedRules} (hDepth : source.depth < depth)
    (hLoad : (load source (main.sibling ⟨file⟩)).result = .ok parsed) :
    (main.normal ∈ (load source (main.sibling ⟨file⟩)).opened.map Path.normal →
      ∀ g text line, TextStates text [.header g, .importFile file line] →
        ∃ path at' target, (parse { source with depth } main text).result =
          .error (.importCycle path at' target)) ∧
    (main.normal ∉ (load source (main.sibling ⟨file⟩)).opened.map Path.normal →
      (∀ g text line, TextStates text [.header g, .importFile file line] →
        (∃ given, (parse { source with depth } main text).result = .ok given) ∧
        ((parse { source with depth } main text).result = .ok (parsed.under g) ↔
          g = anonymousGroup ∨ ¬NamesAnonymous source (main.sibling ⟨file⟩))) ∧
      (∀ text line, TextStates text [.importFile file line] →
        (parse { source with depth } main text).result = .ok parsed)) := by
  obtain ⟨entries, opened, hAlone⟩ := exists_readsAlone_of_load hLoad
  have hGives := load_of_readsAlone hAlone
  obtain rfl : parsed = .collect [] entries := Except.ok.inj (hLoad.symm.trans hGives.result)
  rw [hGives.opened]
  refine ⟨fun hCycle g text line hText => parse_header_import_cycle hDepth hText hAlone hCycle, ?_⟩
  intro hNoCycle
  constructor
  · intro g text line hText
    by_cases hHeader : g ≠ anonymousGroup ∧ NamesAnonymous source (main.sibling ⟨file⟩)
    · obtain ⟨hGroup, entries', opened', hAlone', hMem⟩ := hHeader
      rw [← hGives.opened, (load_of_readsAlone hAlone').opened] at hNoCycle
      obtain ⟨given, hResult, hName⟩ :=
        parse_header_import_of_mem hDepth hText hAlone' hNoCycle hGroup hMem
      refine ⟨⟨given, hResult⟩, iff_of_false ?_ ?_⟩
      · intro hUnder
        rw [hResult] at hUnder
        obtain rfl := Except.ok.inj hUnder
        exact ParsedRules.not_mem_names_under hGroup _ hName
      · rintro (hSame | hNone)
        · exact hGroup hSame
        · exact hNone ⟨entries', opened', hAlone', hMem⟩
    · have hHeaders : g = anonymousGroup ∨ ¬NamesAnonymous source (main.sibling ⟨file⟩) := by
        rwa [not_and_or, not_not] at hHeader
      have hNotMem := hHeaders.imp_right fun hNames hMem => hNames ⟨entries, opened, hAlone, hMem⟩
      have hResult := parse_header_import_of_not_mem hDepth hText hAlone hNoCycle hNotMem
      exact ⟨⟨_, hResult⟩, iff_of_true hResult hHeaders⟩
  · intro text line hText
    exact parse_import hDepth hText hAlone hNoCycle

theorem states_header_import :
    TextStates "#g\nIMPORT \"inner.rcl\"" [.header "g", .importFile "inner.rcl" 2] := by
  refine ⟨[⟨.header "g", 1⟩, ⟨.ident "IMPORT", 2⟩, ⟨.string "inner.rcl", 2⟩], ?_, ?_⟩
  · decide +kernel
  · exact Statement.all_eq_iff.mp rfl

/-- A file with a rule under no header, and a rule under another one. -/
def plainSource : RuleSource :=
  .ofFiles [(⟨"inner.rcl"⟩, "\"T\" OWNS \"a\";\n#h\n\"T\" WEAK \"b\";")]

def plainTokens : List Token :=
  [⟨.string "T", 1⟩, ⟨.ident "OWNS", 1⟩, ⟨.string "a", 1⟩, ⟨.semicolon, 1⟩, ⟨.header "h", 2⟩,
    ⟨.string "T", 3⟩, ⟨.ident "WEAK", 3⟩, ⟨.string "b", 3⟩, ⟨.semicolon, 3⟩]

def plainRules : ParsedRules :=
  [("anonymous",
      [⟨⟨"T", none, .exact "T"⟩, .owns 1 false, ⟨[.field "a"]⟩, ⟨"inner.rcl", 1⟩, "anonymous"⟩]),
    ("h", [⟨⟨"T", none, .exact "T"⟩, .weak, ⟨[.field "b"]⟩, ⟨"inner.rcl", 3⟩, "h"⟩])]

theorem import_plain_under_g :
    plainSource.depth < 4 ∧
      (load plainSource ((⟨"main.rcl"⟩ : Path).sibling ⟨"inner.rcl"⟩)).result = .ok plainRules ∧
      (parse { plainSource with depth := 4 } ⟨"main.rcl"⟩ "#g\nIMPORT \"inner.rcl\"").result =
        .ok (plainRules.under "g") := by
  have hDepth : plainSource.depth < 4 := by decide
  have hTarget : (⟨"main.rcl"⟩ : Path).sibling ⟨"inner.rcl"⟩ = ⟨"inner.rcl"⟩ := by decide +kernel
  have hLoad : (load plainSource ((⟨"main.rcl"⟩ : Path).sibling ⟨"inner.rcl"⟩)).result =
      .ok plainRules := by
    rw [hTarget, plainRules]
    cbv
  have hNoCycle : (⟨"main.rcl"⟩ : Path).normal ∉
      (load plainSource ((⟨"main.rcl"⟩ : Path).sibling ⟨"inner.rcl"⟩)).opened.map Path.normal := by
    decide +kernel
  have hNames : ¬NamesAnonymous plainSource ((⟨"main.rcl"⟩ : Path).sibling ⟨"inner.rcl"⟩) := by
    rintro ⟨entries, opened, ⟨statements, ⟨text, hRead, tokens, hScan, hTokens⟩, hReads⟩, hMem⟩
    -- the file has these tokens and no others, and their statements have these entries
    obtain rfl : tokens = plainTokens := by
      have hPlain : (plainSource.read ((⟨"main.rcl"⟩ : Path).sibling ⟨"inner.rcl"⟩)).map Token.scan =
          .ok (.ok plainTokens) := by
        decide +kernel
      rw [hRead] at hPlain
      exact Except.ok.inj (hScan.symm.trans (Except.ok.inj hPlain))
    obtain ⟨rfl, -⟩ := Prod.mk.inj (Statement.all_eq_iff.mpr hTokens)
    cases hReads with | rule hReads => ?_
    cases hReads with | header hReads => ?_
    cases hReads with | rule hReads => ?_
    cases hReads
    simp [composeGroup, Frame.start, anonymousGroup] at hMem
  have hImport := ((import_eq_under_iff hDepth hLoad).2 hNoCycle).1 _ _ _ states_header_import
  exact ⟨hDepth, hLoad, hImport.2.mpr (.inr hNames)⟩

/-- A rule under a header that names the anonymous group. -/
def headedSource : RuleSource :=
  .ofFiles [(⟨"inner.rcl"⟩, "#anonymous\n\"T\" OWNS \"a\";")]

def headedRules : ParsedRules :=
  [("anonymous",
    [⟨⟨"T", none, .exact "T"⟩, .owns 1 false, ⟨[.field "a"]⟩, ⟨"inner.rcl", 2⟩, "anonymous"⟩])]

/-- On its own the rule is one of the anonymous group, but under a header its group is not that of
the header. -/
theorem import_headed_ne_under :
    (load headedSource ((⟨"main.rcl"⟩ : Path).sibling ⟨"inner.rcl"⟩)).result = .ok headedRules ∧
      (⟨"main.rcl"⟩ : Path).normal ∉
        (load headedSource ((⟨"main.rcl"⟩ : Path).sibling ⟨"inner.rcl"⟩)).opened.map Path.normal ∧
      TextStates "#g\nIMPORT \"inner.rcl\"" [.header "g", .importFile "inner.rcl" 2] ∧
      (parse { headedSource with depth := 4 } ⟨"main.rcl"⟩ "#g\nIMPORT \"inner.rcl\"").result ≠
        .ok (headedRules.under "g") := by
  have hAlone : ReadsAlone headedSource ((⟨"main.rcl"⟩ : Path).sibling ⟨"inner.rcl"⟩)
      [("anonymous", none), ("anonymous", some ⟨⟨"T", none, .exact "T"⟩, .owns 1 false,
        ⟨[.field "a"]⟩, ⟨"inner.rcl", 2⟩, "anonymous"⟩)] [] := by
    refine ⟨[.header "anonymous", .rule ⟨"T", none, .exact "T"⟩ (.owns 1 false) ⟨[.field "a"]⟩ 2],
      ⟨"#anonymous\n\"T\" OWNS \"a\";", by decide +kernel, [⟨.header "anonymous", 1⟩, ⟨.string "T", 2⟩,
        ⟨.ident "OWNS", 2⟩, ⟨.string "a", 2⟩, ⟨.semicolon, 2⟩], by decide +kernel,
        Statement.all_eq_iff.mp rfl⟩, ?_⟩
    exact .header (.rule .done)
  have hGives := load_of_readsAlone hAlone
  have hNoCycle : (⟨"main.rcl"⟩ : Path).normal ∉
      [(⟨"main.rcl"⟩ : Path).sibling ⟨"inner.rcl"⟩].map Path.normal := by
    decide +kernel
  have hGroup : "g" ≠ anonymousGroup := by decide
  refine ⟨hGives.result, by rw [hGives.opened]; exact hNoCycle, states_header_import, ?_⟩
  intro hUnder
  obtain ⟨given, hGiven, hName⟩ := parse_header_import_of_mem (show headedSource.depth < 4 by decide)
    states_header_import hAlone hNoCycle hGroup List.mem_cons_self
  rw [hUnder] at hGiven
  obtain rfl := Except.ok.inj hGiven
  exact ParsedRules.not_mem_names_under hGroup headedRules hName

end RuleFile

end RefRules
