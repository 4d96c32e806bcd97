import RefRules.Proofs.ImportSteps

/-!
# RefRules — the import stack

A file that is still being read is not read again, so the files on the import stack are different ones,
and of finitely many files it can only hold so many. This is what makes reading end. Every call takes
its file from the stack again, whatever comes of it.

Main results:

* `Reader.Inv.step` — what a step keeps: the stack is that of the calls, without repetition, and all
  its files but the first have been read;
* `Call.exists_ends` — every call ends, with the answer that reading is defined to have;
* `imports_are_safe` — cycles, and they alone, are refused before they are read, and a parser is left
  as it was.
-/

namespace RefRules

/-- A text is one row of statements at most. -/
theorem TextStates.unique {text : String} {statements statements' : List Statement}
    (h : TextStates text statements) (h' : TextStates text statements') : statements' = statements := by
  obtain ⟨tokens, hScan, hTokens⟩ := h
  obtain ⟨tokens', hScan', hTokens'⟩ := h'
  obtain rfl : tokens' = tokens := Except.ok.inj (hScan'.symm.trans hScan)
  have hAll := Statement.all_eq_iff.mpr hTokens
  exact (Prod.mk.inj ((Statement.all_eq_iff.mpr hTokens').symm.trans hAll)).1

theorem FileStates.unique {read : Path → Except FileError String} {path : Path}
    {statements statements' : List Statement} (h : FileStates read path statements)
    (h' : FileStates read path statements') : statements' = statements := by
  obtain ⟨text, hText, hStates⟩ := h
  obtain ⟨text', hText', hStates'⟩ := h'
  obtain rfl : text' = text := Except.ok.inj (hText'.symm.trans hText)
  exact TextStates.unique hStates hStates'

namespace RuleFile

variable {read : Path → Except FileError String} {files : List Path}

/-! ## The stack -/

namespace Reader

/-- The stack holds the files of the calls under way, without repetition; below a call from outside
there is nothing. All of them but the first have been read from the source. -/
structure Inv (read : Path → Except FileError String) (r : Reader) : Prop where
  stack_eq : r.stack = r.tasks.map (·.path)
  nodup : (r.stack.map Path.normal).Nodup
  isRead : ∀ p ∈ r.stack.dropLast, ∃ text, read p = .ok text

/-- A call returns. -/
theorem Inv.pop {task : Task} {tasks : List Task} {stack : List Path}
    {result result' : Except RuleError ParsedRules} {asked : List Path}
    (h : Inv read ⟨task :: tasks, stack, result, asked⟩) :
    Inv read ⟨tasks, stack.tail, result', asked⟩ := by
  obtain ⟨hStack, hNodup, hRead⟩ := h
  dsimp only at hStack hNodup hRead
  subst hStack
  refine ⟨rfl, (List.nodup_cons.mp hNodup).2, ?_⟩
  intro p hp
  refine hRead p ?_
  -- the file from outside is the last one of both stacks
  cases tasks with
  | nil => simp at hp
  | cons task' tasks => exact List.mem_cons_of_mem _ hp

/-- A call goes on in its file. -/
theorem Inv.stay {task task' : Task} {tasks : List Task} {stack : List Path}
    {result result' : Except RuleError ParsedRules} {asked asked' : List Path}
    (h : Inv read ⟨task :: tasks, stack, result, asked⟩) (hPath : task'.path = task.path) :
    Inv read ⟨task' :: tasks, stack, result', asked'⟩ := by
  obtain ⟨hStack, hNodup, hRead⟩ := h
  refine ⟨?_, hNodup, hRead⟩
  rw [List.map_cons, hPath]
  exact hStack

/-- A call opens a file that is not on the stack. -/
theorem Inv.push {s : ImportSite} {text : String} (h : s.reader.Inv read) (hCycle : ¬s.IsCycle)
    (hRead : read s.target = .ok text) : (s.entered text).Inv read := by
  have hNew : s.target.normal ∉ s.stack.map Path.normal := ImportSite.not_mem_of_not_isCycle hCycle
  have hStack : s.stack = s.task.path :: s.tasks.map (·.path) := h.stack_eq
  refine ⟨?_, List.nodup_cons.mpr ⟨hNew, h.nodup⟩, ?_⟩
  · show s.target :: s.stack = _
    rw [hStack, ImportSite.entered, List.map_cons, Task.ofText_path, List.map_cons]
  · intro p hp
    -- the new file is not the first one, since the importing file is on the stack
    have hLast : (s.target :: s.stack).dropLast = s.target :: s.stack.dropLast := by
      rw [hStack]
      rfl
    rw [ImportSite.entered, hLast] at hp
    rcases List.mem_cons.mp hp with rfl | hp
    · exact ⟨text, hRead⟩
    · exact h.isRead p hp

/-- **Step lemma.** -/
theorem Inv.step {r r' : Reader} (h : r.Inv read) (hStep : Step read r r') : r'.Inv read := by
  cases hStep with
  | unwind => exact h.pop
  | finish => exact h.pop
  | fault => exact h.stay rfl
  | header => exact h.stay rfl
  | rule => exact h.stay rfl
  | cycle s hCycle => exact h.stay rfl
  | unreadable s hCycle hRead => exact h.stay rfl
  | enter s hCycle hRead => exact h.push hCycle hRead

/-- **Run lemma.** -/
theorem Inv.run {r r' : Reader} (h : r.Inv read) (hRuns : r.Runs read r') : r'.Inv read := by
  induction hRuns with
  | refl => exact h
  | tail _ hStep ih => exact ih.step (step?_iff.mp hStep)

/-- There are at most as many files on the stack as there are at all, and the one from outside. -/
theorem Inv.length_le {r : Reader} (h : r.Inv read) (hFiles : HoldsFiles read files) :
    r.stack.length ≤ files.length + 1 := by
  -- the normal paths of all files but the first are different ones of finitely many
  have hSub : (r.stack.dropLast.map Path.normal) ⊆ files.map Path.normal := by
    intro n hn
    obtain ⟨p, hp, rfl⟩ := List.mem_map.mp hn
    obtain ⟨text, hText⟩ := h.isRead p hp
    obtain ⟨q, hq, hSame⟩ := hFiles p text hText
    exact List.mem_map.mpr ⟨q, hq, eq_of_beq hSame⟩
  have hNodup : (r.stack.dropLast.map Path.normal).Nodup :=
    h.nodup.sublist ((List.dropLast_sublist _).map _)
  have hLength := (hNodup.subperm hSub).length_le
  rw [List.length_map, List.length_map, List.length_dropLast] at hLength
  omega

end Reader

/-- A call from outside begins with its file alone. -/
theorem Call.open_inv (call : Call) : (call.open read []).Inv read := by
  have hEmpty : ∀ result asked, Reader.Inv read ⟨[], [], result, asked⟩ := fun result asked =>
    ⟨rfl, .nil, fun p hp => by simp at hp⟩
  have hText : ∀ path contents asked,
      Reader.Inv read ⟨[.ofText path none contents], [path], .ok [], asked⟩ := by
    intro path contents asked
    refine ⟨?_, List.nodup_singleton _, fun p hp => by simp at hp⟩
    rw [List.map_singleton, Task.ofText_path]
  cases call with
  | text path contents => exact hText path contents []
  | file path =>
    rw [Call.open]
    split
    · exact hEmpty _ _
    · exact hText path _ _

/-! ## Ends -/

/-- With enough depth, a call from outside ends with the answer of reading, and with the stack it has
found. -/
theorem Call.ends_of_isEnough {source : RuleSource} {Enough : Nat → Reader → Prop}
    (hEnough : IsEnough source.read Enough) (call : Call)
    (hDepth : Enough source.depth (call.open source.read [])) :
    ∃ last, (call.open source.read []).Ends source.read last ∧ last.stack = [] ∧
      last.result = call.answer source := by
  have hText : ∀ path contents asked,
      Enough source.depth ⟨[.ofText path none contents], [path], .ok [], asked⟩ → ∃ last,
        Reader.Ends source.read ⟨[.ofText path none contents], [path], .ok [], asked⟩ last ∧
          last.stack = [] ∧ last.result = (parse source path contents).result := by
    intro path contents asked hBegin
    obtain ⟨asked', hRuns⟩ := runs_statements hEnough [path] _ [] [] asked hBegin
    rw [Task.outcome_ofText] at hRuns
    exact ⟨_, ⟨hRuns, rfl⟩, rfl, rfl⟩
  cases call with
  | text path contents => exact hText path contents [] hDepth
  | file path =>
    rw [Call.open] at hDepth ⊢
    rw [Call.answer, load]
    cases hRead : source.read path with
    | error cause => exact ⟨_, ⟨.refl, rfl⟩, rfl, rfl⟩
    | ok contents =>
      rw [hRead] at hDepth
      exact hText path contents [path] hDepth

/-- With finitely many files every call from outside ends. -/
theorem Call.exists_ends {source : RuleSource} (hFiles : HoldsFiles source.read files)
    (hDepth : files.length < source.depth) (call : Call) :
    ∃ last, (call.open source.read []).Ends source.read last ∧ last.stack = [] ∧
      last.result = call.answer source :=
  call.ends_of_isEnough (isEnough_room hFiles) (Nat.lt_of_le_of_lt (room_le files _) hDepth)

/-- A parser serves one call after the other as if each was its first. -/
theorem serves_iff {source : RuleSource} (hFiles : HoldsFiles source.read files)
    (hDepth : files.length < source.depth) (calls : List Call)
    (answers : List (Except RuleError ParsedRules)) (left : List Path) :
    Serves source.read [] calls answers left ↔ answers = calls.map (Call.answer source) ∧ left = [] := by
  -- on the calls; each of them finds the stack empty, and leaves it so
  induction calls generalizing answers left with
  | nil =>
    constructor
    · rintro ⟨⟩
      exact ⟨rfl, rfl⟩
    · rintro ⟨rfl, rfl⟩
      exact .none
  | cons call calls ih =>
    obtain ⟨last, hEnds, hStack, hResult⟩ := call.exists_ends hFiles hDepth
    constructor
    · rintro (_ | ⟨hEnds', hRest⟩)
      obtain rfl := hEnds.eq hEnds'
      rw [hStack] at hRest
      obtain ⟨rfl, rfl⟩ := (ih _ _).mp hRest
      exact ⟨by rw [hResult, List.map_cons], rfl⟩
    · rintro ⟨rfl, rfl⟩
      rw [List.map_cons, ← hResult]
      exact .call hEnds (by rw [hStack]; exact (ih _ _).mpr ⟨rfl, rfl⟩)

/-! ## Cycles -/

/-- At an import of a file that is being read the parser fails, and asks for nothing any more. -/
theorem ImportSite.exists_ends_of_isCycle {s : ImportSite} (hCycle : s.IsCycle) :
    ∃ last, s.reader.Ends read last ∧
      last.result = .error (.importCycle s.task.path s.line s.target) ∧ last.asked = s.asked := by
  have hStep : s.reader.Runs read (s.after (.error (.importCycle s.task.path s.line s.target)) s.asked) :=
    .single (Reader.step?_iff.mpr (.cycle s hCycle))
  exact ⟨_, hStep.ends (Reader.ends_of_error _ _ _ _), rfl, rfl⟩

/-- A cycle is found at an import of a file that is being read. -/
theorem exists_site_of_importCycle {start r : Reader} (hRuns : start.Runs read r) {path target : Path}
    {line : Nat} (hStart : start.result ≠ .error (.importCycle path line target))
    (hResult : r.result = .error (.importCycle path line target)) :
    ∃ s : ImportSite, start.Runs read s.reader ∧ s.IsCycle ∧ s.task.path = path ∧ s.line = line ∧
      s.target = target := by
  -- on the steps; the error is the last step's or was there before
  induction hRuns with
  | refl => exact absurd hResult hStart
  | tail hBefore hStep ih =>
    cases Reader.step?_iff.mp hStep with
    | unwind => exact ih hResult
    | cycle s hCycle =>
      have hSame := RuleError.importCycle.inj (Except.error.inj hResult)
      exact ⟨s, hBefore, hCycle, hSame⟩
    | unreadable s hCycle hRead => cases hResult
    | _ => cases hResult

/-! ## Imports twice -/

/-- What a file does depends on the stack in that it can fail, and in nothing else. -/
theorem Reads.unique {depth depth' : Nat} {f f' : Frame} {group : String} {statements : List Statement}
    {entries entries' : List GroupEntry} {opened opened' : List Path}
    (h : Reads read depth f group statements entries opened) (hPath : f'.path = f.path)
    (hOuter : f'.outer = f.outer) (h' : Reads read depth' f' group statements entries' opened') :
    entries' = entries := by
  -- on what the file does; the other derivation has to do the same statement each time
  induction h generalizing depth' f' entries' opened' with
  | done =>
    cases h'
    rfl
  | header _ ih =>
    cases h' with | header hRest => ?_
    rw [hOuter] at hRest ⊢
    rw [ih hPath hOuter hRest]
  | rule _ ih =>
    cases h' with | rule hRest => ?_
    rw [ih hPath hOuter hRest, hPath]
  | @importFile _ f _ file _ _ _ _ _ _ _ _ hFile _ _ ihInner ihRest =>
    cases h' with | importFile _ hFile' hInner' hRest' => ?_
    -- both import the same file, which says the same
    have hTarget : f'.target file = f.target file := by rw [Frame.target, Frame.target, hPath]
    rw [hTarget] at hFile' hInner'
    obtain rfl := FileStates.unique hFile hFile'
    rw [ihInner (by rfl) (by rfl) hInner', ihRest hPath hOuter hRest']

/-- Imported under a group, the file does what the entries say. -/
def Contributes (read : Path → Except FileError String) (target : Path) (group : String)
    (entries : List GroupEntry) : Prop :=
  ∃ depth stack statements opened, FileStates read target statements ∧
    Reads read depth (Frame.enter ⟨stack, target, none⟩ target group) group statements entries opened

theorem Contributes.unique {target : Path} {group : String} {entries entries' : List GroupEntry}
    (h : Contributes read target group entries) (h' : Contributes read target group entries') :
    entries' = entries := by
  obtain ⟨depth, stack, statements, opened, hFile, hReads⟩ := h
  obtain ⟨depth', stack', statements', opened', hFile', hReads'⟩ := h'
  obtain rfl := FileStates.unique hFile hFile'
  exact hReads.unique (by rfl) (by rfl) hReads'

/-- When an import can be read with some rules before it, with any rules it adds the same entries. -/
theorem exists_contributes_of_readImport {source : RuleSource} {depth : Nat} {stack : List Path}
    {target : Path} {group : String} {rules parsed : ParsedRules}
    (h : (readImport source (depth + 1) stack target (importGroup group) rules).result = .ok parsed) :
    ∃ entries, Contributes source.read target group entries ∧ ∀ rules' : ParsedRules,
      (readImport source (depth + 1) stack target (importGroup group) rules').result =
        .ok (rules'.collect entries) := by
  obtain ⟨statements, hFile⟩ := exists_states_of_readImport (f := ⟨stack, target, none⟩) h
  rw [readImport_of_states (f := ⟨stack, target, none⟩) hFile] at h
  obtain ⟨entries, hReads, -⟩ := run_gives_iff.mp ⟨rfl, h⟩
  refine ⟨entries, ⟨_, stack, statements, _, hFile, hReads⟩, fun rules' => ?_⟩
  rw [readImport_of_states (f := ⟨stack, target, none⟩) hFile]
  exact (run_gives_iff.mpr ⟨entries, hReads, rfl⟩).result

/-- An import adds the same entries wherever it stands, and it depends on the stack alone whether it
fails. -/
theorem import_adds_same (hFiles : HoldsFiles read files) (target : Path) (group : String) :
    ∃ (entries : List GroupEntry) (Fails : List Path → Prop), ∀ s : ImportSite,
      s.target = target → s.task.group = group → ¬s.IsCycle →
        (Fails s.stack → ∃ last e, s.reader.Ends read last ∧ last.result = .error e) ∧
        (¬Fails s.stack → ∃ asked,
          s.reader.Runs read (s.after (.ok (s.rules.collect entries)) asked)) := by
  classical
  let source : RuleSource := ⟨read, files.length + 1⟩
  let read' (stack : List Path) (rules : ParsedRules) : Except RuleError ParsedRules :=
    (readImport source (files.length + 1) (stack.map Path.normal) target (importGroup group)
      rules).result
  -- the entries of the import, if it can be read anywhere
  obtain ⟨entries, hEntries⟩ : ∃ entries, ∀ entries', Contributes read target group entries' →
      entries' = entries := by
    by_cases hSome : ∃ entries, Contributes read target group entries
    · obtain ⟨entries, hContributes⟩ := hSome
      exact ⟨entries, fun entries' h' => hContributes.unique h'⟩
    · exact ⟨[], fun entries' h' => absurd ⟨entries', h'⟩ hSome⟩
  refine ⟨entries, fun stack => ∀ rules parsed, read' stack rules ≠ .ok parsed, ?_⟩
  rintro s rfl rfl hCycle
  have hRoom : room files s.stack < files.length + 1 := Nat.lt_succ_of_le (room_le files s.stack)
  have hEnough : IsEnough source.read fun depth r => room files r.stack < depth := isEnough_room hFiles
  obtain ⟨asked, hRuns⟩ := runs_import hEnough
    (fun stack task tasks rules asked => runs_statements hEnough stack task tasks rules asked) hCycle hRoom
  have hOutcome : (s.outcome source (files.length + 1)).result = read' s.stack s.rules := rfl
  rw [hOutcome] at hRuns
  constructor
  · intro hFails
    cases hResult : read' s.stack s.rules with
    | ok parsed => exact absurd hResult (hFails s.rules parsed)
    | error e =>
      rw [hResult] at hRuns
      exact ⟨_, e, hRuns.ends (Reader.ends_of_error _ _ _ _), rfl⟩
  · intro hReadable
    simp only [ne_eq, not_forall, not_not] at hReadable
    obtain ⟨rules, parsed, hResult⟩ := hReadable
    obtain ⟨entries', hContributes, hAll⟩ := exists_contributes_of_readImport hResult
    obtain rfl := hEntries entries' hContributes
    have hSame : read' s.stack s.rules = .ok (s.rules.collect entries') := hAll s.rules
    rw [hSame] at hRuns
    exact ⟨asked, hRuns⟩

/-! ## What a parser does -/

theorem Call.open_result (call : Call) (path target : Path) (line : Nat) :
    (call.open read []).result ≠ .error (.importCycle path line target) := by
  cases call with
  | text path contents => exact nofun
  | file path =>
    rw [Call.open]
    split <;> exact nofun

/-- What holds of a parser with an empty import stack while it serves a call: the stack never holds a
file twice, nor more files than there are and the one from outside; the call ends with an empty stack;
an import of a file on the stack makes the call fail there with a cycle, and nothing is read any more;
and no other import does. -/
structure Call.IsSafe (read : Path → Except FileError String) (files : List Path) (call : Call) :
    Prop where
  nodup : ∀ r, (call.open read []).Runs read r → (r.stack.map Path.normal).Nodup
  bounded : ∀ r, (call.open read []).Runs read r → r.stack.length ≤ files.length + 1
  ends : ∃ last, (call.open read []).Ends read last ∧ last.stack = []
  cycle : ∀ s : ImportSite, (call.open read []).Runs read s.reader → s.IsCycle →
    ∃ last, (call.open read []).Ends read last ∧
      last.result = .error (.importCycle s.task.path s.line s.target) ∧ last.asked = s.asked
  onlyCycle : ∀ last path line target, (call.open read []).Ends read last →
    last.result = .error (.importCycle path line target) →
      ∃ s : ImportSite, (call.open read []).Runs read s.reader ∧ s.IsCycle ∧ s.task.path = path ∧
        s.line = line ∧ s.target = target

/-- **Imports are safe.** Let a source hold finitely many files, up to the same path. Then every call
on a parser is safe. An import of a file under a group that is not refused adds the same entries
wherever it stands, unless it fails, and whether it does depends on the import stack alone: so a file
that is imported twice adds its rules twice. And a parser that is asked one call after the other, with
failures or without, answers each as reading is defined to, with any bound on the depth above the
number of files, and its stack is empty in the end. -/
theorem imports_are_safe (hFiles : HoldsFiles read files) :
    (∀ call : Call, call.IsSafe read files) ∧
      (∀ target group, ∃ (entries : List GroupEntry) (Fails : List Path → Prop), ∀ s : ImportSite,
        s.target = target → s.task.group = group → ¬s.IsCycle →
          (Fails s.stack → ∃ last e, s.reader.Ends read last ∧ last.result = .error e) ∧
          (¬Fails s.stack → ∃ asked,
            s.reader.Runs read (s.after (.ok (s.rules.collect entries)) asked))) ∧
      ∀ depth, files.length < depth → ∀ calls answers left,
        Serves read [] calls answers left ↔
          answers = calls.map (Call.answer ⟨read, depth⟩) ∧ left = [] := by
  refine ⟨fun call => ?_, import_adds_same hFiles, fun depth hDepth => ?_⟩
  · have hInv : ∀ r, (call.open read []).Runs read r → r.Inv read := fun r => call.open_inv.run
    have hHolds : HoldsFiles (RuleSource.mk read (files.length + 1)).read files := hFiles
    have hAnswer := call.exists_ends hHolds (Nat.lt_succ_self files.length)
    refine ⟨fun r hRuns => (hInv r hRuns).nodup, ?_, ?_, ?_, ?_⟩
    · intro r hRuns
      exact (hInv r hRuns).length_le hFiles
    · obtain ⟨last, hEnds, hStack, -⟩ := hAnswer
      exact ⟨last, hEnds, hStack⟩
    · intro s hRuns hCycle
      obtain ⟨last, hEnds, hResult, hAsked⟩ := ImportSite.exists_ends_of_isCycle hCycle
      exact ⟨last, hRuns.ends hEnds, hResult, hAsked⟩
    · intro last path line target hEnds hResult
      exact exists_site_of_importCycle hEnds.runs (call.open_result path target line) hResult
  · have hHolds : HoldsFiles (RuleSource.mk read depth).read files := hFiles
    exact serves_iff hHolds hDepth

theorem holdsFiles_ofFiles (files : List (Path × String)) :
    HoldsFiles (RuleSource.ofFiles files).read (files.map (·.1)) := by
  intro p text hRead
  simp only [RuleSource.ofFiles] at hRead
  split at hRead
  · next file hFound =>
    have hMem : file ∈ files := List.mem_reverse.mp (List.mem_of_find?_eq_some hFound)
    have hSame := List.find?_some hFound
    exact ⟨file.1, List.mem_map_of_mem hMem, hSame⟩
  · cases hRead

/-- Two files that import each other, and one that imports a rule twice. -/
def ringFiles : List (Path × String) :=
  [(⟨"a.rcl"⟩, "IMPORT \"b.rcl\""), (⟨"b.rcl"⟩, "IMPORT \"a.rcl\""),
    (⟨"twice.rcl"⟩, "IMPORT \"c.rcl\"\nIMPORT \"c.rcl\""), (⟨"c.rcl"⟩, "\"T\" OWNS \"a\";")]

def ringSource : RuleSource :=
  { RuleSource.ofFiles ringFiles with depth := 6 }

/-- The rule of the last file. -/
def ownsRule : Rule :=
  ⟨⟨"T", none, .exact "T"⟩, .owns 1 false, ⟨[.field "a"]⟩, ⟨"c.rcl", 1⟩, "anonymous"⟩

theorem readsAlone_twice :
    ReadsAlone ringSource ⟨"twice.rcl"⟩ [("anonymous", some ownsRule), ("anonymous", some ownsRule)]
      [⟨"c.rcl"⟩, ⟨"c.rcl"⟩] := by
  have hTarget : (Frame.start ⟨"twice.rcl"⟩).target "c.rcl" = ⟨"c.rcl"⟩ := by decide +kernel
  have hNew : ((Frame.start ⟨"twice.rcl"⟩).target "c.rcl").normal ∉ (Frame.start ⟨"twice.rcl"⟩).stack := by
    decide +kernel
  have hOwns : FileStates ringSource.read ((Frame.start ⟨"twice.rcl"⟩).target "c.rcl")
      [.rule ⟨"T", none, .exact "T"⟩ (.owns 1 false) ⟨[.field "a"]⟩ 1] :=
    ⟨"\"T\" OWNS \"a\";", by decide +kernel, [⟨.string "T", 1⟩, ⟨.ident "OWNS", 1⟩, ⟨.string "a", 1⟩,
      ⟨.semicolon, 1⟩], by decide +kernel, Statement.all_eq_iff.mp rfl⟩
  have hTwice : FileStates ringSource.read ⟨"twice.rcl"⟩
      [.importFile "c.rcl" 1, .importFile "c.rcl" 2] :=
    ⟨"IMPORT \"c.rcl\"\nIMPORT \"c.rcl\"", by decide +kernel, [⟨.ident "IMPORT", 1⟩,
      ⟨.string "c.rcl", 1⟩, ⟨.ident "IMPORT", 2⟩, ⟨.string "c.rcl", 2⟩], by decide +kernel,
      Statement.all_eq_iff.mp rfl⟩
  have hReads : Reads ringSource.read 6 (.start ⟨"twice.rcl"⟩) anonymousGroup
      [.importFile "c.rcl" 1, .importFile "c.rcl" 2] _ _ :=
    .importFile hNew hOwns (.rule .done) (.importFile hNew hOwns (.rule .done) .done)
  refine ⟨_, hTwice, ?_⟩
  simp only [Frame.enter, hTarget, List.nil_append, List.cons_append] at hReads
  exact hReads

/-- The ring is refused where it closes, and the same parser goes on to read the rule twice. -/
theorem serves_ring :
    Serves ringSource.read [] [.file ⟨"a.rcl"⟩, .file ⟨"twice.rcl"⟩]
      [.error (.importCycle ⟨"b.rcl"⟩ 1 ⟨"a.rcl"⟩), .ok [("anonymous", [ownsRule, ownsRule])]] [] := by
  have hFiles : HoldsFiles ringSource.read (ringFiles.map (·.1)) := holdsFiles_ofFiles ringFiles
  have hRing : Call.answer ringSource (.file ⟨"a.rcl"⟩) =
      .error (.importCycle ⟨"b.rcl"⟩ 1 ⟨"a.rcl"⟩) := by
    have hError : (Call.answer ringSource (.file ⟨"a.rcl"⟩)).map (fun _ => ()) =
        .error (.importCycle ⟨"b.rcl"⟩ 1 ⟨"a.rcl"⟩) := by decide +kernel
    cases hAnswer : Call.answer ringSource (.file ⟨"a.rcl"⟩) with
    | ok parsed => simp [hAnswer, Except.map] at hError
    | error e =>
      rw [hAnswer] at hError
      exact congrArg Except.error (Except.error.inj hError)
  have hTwice : Call.answer ringSource (.file ⟨"twice.rcl"⟩) =
      .ok [("anonymous", [ownsRule, ownsRule])] :=
    (load_of_readsAlone readsAlone_twice).result
  have hServes := (imports_are_safe hFiles).2.2 6 (by decide) [.file ⟨"a.rcl"⟩, .file ⟨"twice.rcl"⟩]
  refine (hServes _ _).mpr ⟨?_, rfl⟩
  rw [← hRing, ← hTwice]
  rfl

end RuleFile

end RefRules
