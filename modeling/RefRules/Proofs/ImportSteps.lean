import RefRules.Proofs.Imports

/-!
# RefRules — reading rule files step by step

Files are read by calls inside of each other. A `Reader` is a parser in the middle of its work: the
calls under way with what is left of their files, the import stack, which is kept apart and is the only
thing that outlives a call, and the rules so far or the error that all calls return with. `step?` does
one thing in the innermost call.

Main results:

* `Reader.step?_iff` — all that a step can do;
* `Reader.Runs.ends_of_ends` — a reader has one end at most;
* `isEnough_room` — among finitely many files there is enough depth for those that are not on the stack;
* `runs_statements` — with enough depth the calls of a reader do what reading a file inside of others is
  defined to do.
-/

namespace RefRules

namespace RuleFile

/-! ## Readers -/

/-- A call that carries out the statements of a file: those that are left, the group in force, and the
fault that ends the file. -/
structure Task where
  path : Path
  outer : Option String
  group : String
  statements : List Statement
  fault? : Option Fault

/-- The call that reads a text. -/
def Task.ofText (path : Path) (outer : Option String) (text : String) : Task :=
  match Token.scan text with
  | .error (line, fault) => ⟨path, outer, outer.getD anonymousGroup, [], some (line, .token fault)⟩
  | .ok tokens =>
    ⟨path, outer, outer.getD anonymousGroup, (Statement.all tokens).1, (Statement.all tokens).2⟩

/-- A parser at work: calls and import stack with the innermost first, and the paths that the source
was asked for, the last first. -/
structure Reader where
  tasks : List Task
  stack : List Path
  result : Except RuleError ParsedRules
  asked : List Path

/-! ## Imports -/

/-- A call that has come to an import. `task` is what it goes on with behind it. -/
structure ImportSite where
  task : Task
  tasks : List Task
  stack : List Path
  rules : ParsedRules
  asked : List Path
  file : String
  line : Nat

namespace ImportSite

/-- The reader at the import. -/
def reader (s : ImportSite) : Reader :=
  ⟨{ s.task with statements := .importFile s.file s.line :: s.task.statements } :: s.tasks, s.stack,
    .ok s.rules, s.asked⟩

/-- The file that is to be imported. -/
def target (s : ImportSite) : Path :=
  s.task.path.sibling ⟨s.file⟩

/-- The file is being read. -/
def IsCycle (s : ImportSite) : Prop :=
  ∃ p ∈ s.stack, p.same s.target = true

instance (s : ImportSite) : Decidable s.IsCycle :=
  inferInstanceAs (Decidable (∃ p ∈ s.stack, _))

/-- The import has come to this result. -/
def after (s : ImportSite) (result : Except RuleError ParsedRules) (asked : List Path) : Reader :=
  ⟨s.task :: s.tasks, s.stack, result, asked⟩

/-- The file is opened, and its text is read next. -/
def entered (s : ImportSite) (text : String) : Reader :=
  ⟨.ofText s.target (importGroup s.task.group) text :: s.task :: s.tasks, s.target :: s.stack,
    .ok s.rules, s.target :: s.asked⟩

/-- What an import does: a file that is being read is not even asked for. -/
def next (read : Path → Except FileError String) (s : ImportSite) : Reader :=
  if s.IsCycle then s.after (.error (.importCycle s.task.path s.line s.target)) s.asked
  else
    match read s.target with
    | .error cause => s.after (.error (.unreadable s.target cause)) (s.target :: s.asked)
    | .ok text => s.entered text

end ImportSite

/-! ## Steps -/

/-- The next thing that a call does. -/
def Task.step (read : Path → Except FileError String) (task : Task) (tasks : List Task)
    (stack : List Path) (rules : ParsedRules) (asked : List Path) : Reader :=
  match task.statements with
  | [] =>
    match task.fault? with
    | none => ⟨tasks, stack.tail, .ok rules, asked⟩
    | some (line, fault) => ⟨task :: tasks, stack, .error (.parse task.path line fault), asked⟩
  | .header name :: rest =>
    let group := composeGroup task.outer name
    ⟨{ task with group := group, statements := rest } :: tasks, stack, .ok (rules.touch group), asked⟩
  | .rule spec kind fields line :: rest =>
    let rule : Rule := ⟨spec, kind, fields, ⟨task.path.text, line⟩, task.group⟩
    ⟨{ task with statements := rest } :: tasks, stack, .ok (rules.append task.group [rule]), asked⟩
  | .importFile file line :: rest =>
    ImportSite.next read ⟨{ task with statements := rest }, tasks, stack, rules, asked, file, line⟩

/-- One step; with an error the innermost call returns it, and with no call there is no step. -/
def Reader.step? (read : Path → Except FileError String) (r : Reader) : Option Reader :=
  match r.tasks, r.result with
  | [], _ => none
  | _ :: tasks, .error e => some ⟨tasks, r.stack.tail, .error e, r.asked⟩
  | task :: tasks, .ok rules => some (task.step read tasks r.stack rules r.asked)

/-- Steps lead from a reader to another. -/
def Reader.Runs (read : Path → Except FileError String) : Reader → Reader → Prop :=
  Relation.ReflTransGen fun r r' => r.step? read = some r'

/-- The reader comes to an end, where all calls have returned. -/
structure Reader.Ends (read : Path → Except FileError String) (r last : Reader) : Prop where
  runs : r.Runs read last
  done : last.tasks = []

/-! ## Calls from outside -/

/-- What a parser can be asked for: the rules of a file, or of a text as if it were a file. -/
inductive Call where
  | file (path : Path)
  | text (path : Path) (text : String)

/-- The parser takes up a call, with the import stack as it is. -/
def Call.open (read : Path → Except FileError String) (stack : List Path) : Call → Reader
  | .file path =>
    match read path with
    | .error cause => ⟨[], stack, .error (.unreadable path cause), [path]⟩
    | .ok contents => ⟨[.ofText path none contents], path :: stack, .ok [], [path]⟩
  | .text path contents => ⟨[.ofText path none contents], path :: stack, .ok [], []⟩

/-- The rules that a call gives, or its error. -/
def Call.answer (source : RuleSource) : Call → Except RuleError ParsedRules
  | .file path => (load source path).result
  | .text path contents => (parse source path contents).result

/-- `Serves read stack calls answers left`: a parser with this import stack is asked one call after the
other. It gives the answers, and this stack is left. -/
inductive Serves (read : Path → Except FileError String) :
    List Path → List Call → List (Except RuleError ParsedRules) → List Path → Prop
  | none {stack} : Serves read stack [] [] stack
  | call {stack call calls last answers left} (hEnds : (Call.open read stack call).Ends read last)
      (hRest : Serves read last.stack calls answers left) :
      Serves read stack (call :: calls) (last.result :: answers) left

/-! ## What steps do -/

namespace Reader

variable {read : Path → Except FileError String}

/-- All that a step can do. -/
inductive Step (read : Path → Except FileError String) : Reader → Reader → Prop
  | unwind {task tasks stack e asked} :
      Step read ⟨task :: tasks, stack, .error e, asked⟩ ⟨tasks, stack.tail, .error e, asked⟩
  | finish {path outer group tasks stack rules asked} :
      Step read ⟨⟨path, outer, group, [], none⟩ :: tasks, stack, .ok rules, asked⟩
        ⟨tasks, stack.tail, .ok rules, asked⟩
  | fault {path outer group line fault tasks stack rules asked} :
      Step read ⟨⟨path, outer, group, [], some (line, fault)⟩ :: tasks, stack, .ok rules, asked⟩
        ⟨⟨path, outer, group, [], some (line, fault)⟩ :: tasks, stack,
          .error (.parse path line fault), asked⟩
  | header {path outer group name rest fault? tasks stack rules asked} :
      Step read ⟨⟨path, outer, group, .header name :: rest, fault?⟩ :: tasks, stack, .ok rules, asked⟩
        ⟨⟨path, outer, composeGroup outer name, rest, fault?⟩ :: tasks, stack,
          .ok (rules.touch (composeGroup outer name)), asked⟩
  | rule {path outer group spec kind fields line rest fault? tasks stack rules asked} :
      Step read ⟨⟨path, outer, group, .rule spec kind fields line :: rest, fault?⟩ :: tasks, stack,
          .ok rules, asked⟩
        ⟨⟨path, outer, group, rest, fault?⟩ :: tasks, stack,
          .ok (rules.append group [⟨spec, kind, fields, ⟨path.text, line⟩, group⟩]), asked⟩
  | cycle (s : ImportSite) (hCycle : s.IsCycle) :
      Step read s.reader (s.after (.error (.importCycle s.task.path s.line s.target)) s.asked)
  | unreadable (s : ImportSite) {cause} (hCycle : ¬s.IsCycle) (hRead : read s.target = .error cause) :
      Step read s.reader (s.after (.error (.unreadable s.target cause)) (s.target :: s.asked))
  | enter (s : ImportSite) {text} (hCycle : ¬s.IsCycle) (hRead : read s.target = .ok text) :
      Step read s.reader (s.entered text)

theorem step_next (s : ImportSite) : Step read s.reader (s.next read) := by
  unfold ImportSite.next
  split
  · next hCycle => exact .cycle s hCycle
  · next hCycle =>
    split
    · next hRead => exact .unreadable s hCycle hRead
    · next hRead => exact .enter s hCycle hRead

theorem step?_iff {r r' : Reader} : r.step? read = some r' ↔ Step read r r' := by
  constructor
  · intro h
    obtain ⟨tasks, stack, result, asked⟩ := r
    cases tasks with
    | nil => cases h
    | cons task tasks =>
      cases result with
      | error e =>
        cases h
        exact .unwind
      | ok rules =>
        obtain ⟨path, outer, group, statements, fault?⟩ := task
        rw [step?, Option.some.injEq] at h
        subst h
        cases statements with
        | nil =>
          cases fault? with
          | none => exact .finish
          | some fault => exact .fault
        | cons statement rest =>
          cases statement with
          | header name => exact .header
          | rule spec kind fields line => exact .rule
          | importFile file line =>
            exact step_next ⟨⟨path, outer, group, rest, fault?⟩, tasks, stack, rules, asked, file, line⟩
  · intro h
    -- but for imports the steps are read off; at an import the conditions decide
    cases h with
    | cycle s hCycle => exact congrArg some (if_pos hCycle)
    | unreadable s hCycle hRead =>
      show some (s.next read) = _
      rw [ImportSite.next, if_neg hCycle, hRead]
    | enter s hCycle hRead =>
      show some (s.next read) = _
      rw [ImportSite.next, if_neg hCycle, hRead]
    | _ => rfl

/-! ## Runs -/

theorem step?_of_done {r : Reader} (hDone : r.tasks = []) : r.step? read = none := by
  rw [step?, hDone]

/-- Whatever steps a reader has made, it comes to the same end. -/
theorem Runs.ends_of_ends {r r' last : Reader} (hRuns : r.Runs read r') (hEnds : r.Ends read last) :
    r'.Ends read last := by
  have hUnique : Relator.RightUnique fun r r' : Reader => r.step? read = some r' := by
    intro a b c hb hc
    exact Option.some.inj (hb.symm.trans hc)
  refine ⟨?_, hEnds.done⟩
  -- one of the two runs goes on from the other
  rcases Relation.ReflTransGen.total_of_right_unique hUnique hRuns hEnds.runs with hOn | hBack
  · exact hOn
  · -- behind the end there is no step
    rcases hBack.cases_head with rfl | ⟨next, hStep, -⟩
    · exact .refl
    · rw [step?_of_done hEnds.done] at hStep
      cases hStep

theorem Ends.eq {r last last' : Reader} (h : r.Ends read last) (h' : r.Ends read last') :
    last = last' := by
  have hEnds : last'.Ends read last := Runs.ends_of_ends h'.runs h
  rcases hEnds.runs.cases_head with hSame | ⟨next, hStep, -⟩
  · exact hSame.symm
  · rw [step?_of_done h'.done] at hStep
    cases hStep

theorem Runs.ends {r r' last : Reader} (hRuns : r.Runs read r') (hEnds : r'.Ends read last) :
    r.Ends read last :=
  ⟨hRuns.trans hEnds.runs, hEnds.done⟩

/-- Every call returns an error to the one around it, and takes its file from the stack. -/
theorem ends_of_error (tasks : List Task) (stack : List Path) (e : RuleError) (asked : List Path) :
    Ends read ⟨tasks, stack, .error e, asked⟩ ⟨[], stack.drop tasks.length, .error e, asked⟩ := by
  -- on the calls under way, the innermost first
  induction tasks generalizing stack with
  | nil => exact ⟨.refl, rfl⟩
  | cons task tasks ih =>
    have hRest := ih stack.tail
    rw [List.drop_tail] at hRest
    exact ⟨.head (step?_iff.mpr .unwind) hRest.runs, rfl⟩

end Reader

/-! ## What calls give -/

theorem Task.ofText_path (path : Path) (outer : Option String) (text : String) :
    (Task.ofText path outer text).path = path := by
  unfold ofText
  split <;> rfl

/-- What reading gives for the statements that are left of a call, by the definition that goes through
files inside of each other. -/
def Task.outcome (source : RuleSource) (depth : Nat) (stack : List Path) (task : Task)
    (rules : ParsedRules) : Outcome :=
  runStatements (readImport source depth (stack.map Path.normal)) (stack.map Path.normal) task.path
    task.outer task.fault? task.statements task.group rules

theorem Task.outcome_ofText (source : RuleSource) (depth : Nat) (stack : List Path) (path : Path)
    (outer : Option String) (text : String) (rules : ParsedRules) :
    (Task.ofText path outer text).outcome source depth stack rules =
      runText (readImport source depth (stack.map Path.normal)) (stack.map Path.normal) path text outer
        rules := by
  unfold outcome ofText runText
  cases Token.scan text with
  | error fault => rfl
  | ok tokens => rfl

namespace ImportSite

/-- What reading gives for the import alone. -/
def outcome (source : RuleSource) (depth : Nat) (s : ImportSite) : Outcome :=
  readImport source depth (s.stack.map Path.normal) s.target (importGroup s.task.group) s.rules

/-- A file is being read exactly when its normal path is that of a file on the stack. -/
theorem isCycle_iff {s : ImportSite} :
    s.IsCycle ↔ (s.stack.map Path.normal).contains s.target.normal = true := by
  rw [List.contains_iff_mem, List.mem_map]
  exact exists_congr fun p => and_congr_right fun _ => beq_iff_eq

/-- What may be opened is not on the stack. -/
theorem not_mem_of_not_isCycle {s : ImportSite} (hCycle : ¬s.IsCycle) :
    s.target.normal ∉ s.stack.map Path.normal :=
  fun hMem => hCycle (isCycle_iff.mpr (List.contains_iff_mem.mpr hMem))

theorem outcome_of_isCycle {s : ImportSite} (hCycle : s.IsCycle) (source : RuleSource) (depth : Nat) :
    (Task.outcome source depth s.stack { s.task with
      statements := .importFile s.file s.line :: s.task.statements } s.rules).result =
      .error (.importCycle s.task.path s.line s.target) := by
  have hContains := isCycle_iff.mp hCycle
  unfold target at hContains
  rw [Task.outcome, runStatements, if_pos hContains]
  rfl

theorem outcome_of_not_isCycle {s : ImportSite} (hCycle : ¬s.IsCycle) (source : RuleSource)
    (depth : Nat) :
    (Task.outcome source depth s.stack { s.task with
      statements := .importFile s.file s.line :: s.task.statements } s.rules).result =
      (s.outcome source depth).result.bind fun rules =>
        (s.task.outcome source depth s.stack rules).result := by
  have hContains := mt isCycle_iff.mpr hCycle
  unfold target at hContains
  rw [Task.outcome, runStatements, if_neg hContains]
  simp only [outcome, target]
  cases hInner : (readImport source depth (s.stack.map Path.normal) (s.task.path.sibling ⟨s.file⟩)
      (importGroup s.task.group) s.rules).result with
  | error e => rfl
  | ok gathered => rfl

end ImportSite

/-! ## Agreement -/

/-- The source has these files only, up to the same path. -/
def HoldsFiles (read : Path → Except FileError String) (files : List Path) : Prop :=
  ∀ p text, read p = .ok text → ∃ q ∈ files, q.same p = true

/-- The number of files that are not on the stack. -/
def room (files stack : List Path) : Nat :=
  ((files.map Path.normal).toFinset \ (stack.map Path.normal).toFinset).card

theorem room_le (files stack : List Path) : room files stack ≤ files.length :=
  calc room files stack ≤ (files.map Path.normal).toFinset.card :=
        Finset.card_le_card Finset.sdiff_subset
    _ ≤ (files.map Path.normal).length := List.toFinset_card_le _
    _ = files.length := List.length_map ..

/-- A file that is opened leaves room for one less. -/
theorem room_cons_lt {files stack : List Path} {p q : Path} (hFile : q ∈ files)
    (hSame : q.same p = true) (hNew : p.normal ∉ stack.map Path.normal) :
    room files (p :: stack) < room files stack := by
  have hNormal : p.normal ∈ files.map Path.normal := by
    rw [← eq_of_beq hSame]
    exact List.mem_map_of_mem hFile
  refine Finset.card_lt_card ((Finset.ssubset_iff_of_subset ?_).mpr ⟨p.normal, ?_, ?_⟩)
  · intro x hx
    simp only [Finset.mem_sdiff, List.mem_toFinset, List.map_cons, List.mem_cons, not_or] at hx ⊢
    exact ⟨hx.1, hx.2.2⟩
  · simp only [Finset.mem_sdiff, List.mem_toFinset]
    exact ⟨hNormal, hNew⟩
  · simp

/-- `Enough depth r` is to say that `depth` levels are enough for what the reader has yet to do: steps
within a file keep it, a file that is opened costs one level, and there always is one. -/
structure IsEnough (read : Path → Except FileError String) (Enough : Nat → Reader → Prop) : Prop where
  pos : ∀ r, ¬Enough 0 r
  stay : ∀ depth r r', Enough depth r → r.Runs read r' → r'.stack = r.stack → Enough depth r'
  enter : ∀ depth (s : ImportSite) text, Enough (depth + 1) s.reader → ¬s.IsCycle →
    read s.target = .ok text → Enough depth (s.entered text)

/-- With finitely many files there is enough depth for those that are not on the stack. -/
theorem isEnough_room {read : Path → Except FileError String} {files : List Path}
    (hFiles : HoldsFiles read files) : IsEnough read fun depth r => room files r.stack < depth := by
  refine ⟨fun r => Nat.not_lt_zero _, ?_, ?_⟩
  · intro depth r r' hRoom _ hStack
    rw [hStack]
    exact hRoom
  · intro depth s text hRoom hCycle hRead
    -- the file is one that was not on the stack, so there is less room below it
    obtain ⟨q, hq, hSame⟩ := hFiles _ _ hRead
    have hDrop := room_cons_lt hq hSame (ImportSite.not_mem_of_not_isCycle hCycle)
    exact Nat.lt_of_lt_of_le hDrop (Nat.le_of_lt_succ hRoom)

section

variable {source : RuleSource} {Enough : Nat → Reader → Prop}

/-- An import does what it is defined to do, provided that every call with one level less below it
does. -/
theorem runs_import {depth : Nat} (hEnough : IsEnough source.read Enough)
    (hInner : ∀ (stack : List Path) (task : Task) (tasks : List Task) (rules : ParsedRules)
      (asked : List Path), Enough depth ⟨task :: tasks, stack, .ok rules, asked⟩ →
        ∃ asked', Reader.Runs source.read ⟨task :: tasks, stack, .ok rules, asked⟩
          ⟨tasks, stack.tail, (task.outcome source depth stack rules).result, asked'⟩)
    {s : ImportSite} (hCycle : ¬s.IsCycle) (hDepth : Enough (depth + 1) s.reader) :
    ∃ asked, s.reader.Runs source.read (s.after (s.outcome source (depth + 1)).result asked) := by
  rw [ImportSite.outcome, readImport]
  cases hRead : source.read s.target with
  | error cause =>
    exact ⟨_, .single (Reader.step?_iff.mpr (.unreadable s hCycle hRead))⟩
  | ok text =>
    obtain ⟨asked, hRuns⟩ := hInner _ _ _ _ _ (hEnough.enter depth s text hDepth hCycle hRead)
    rw [Task.outcome_ofText] at hRuns
    exact ⟨asked, .head (Reader.step?_iff.mpr (.enter s hCycle hRead)) hRuns⟩

/-- **The calls of a reader do what reading is defined to do.** With enough depth, a call carries out
the statements that are left, and returns with their outcome and with the stack that it has found. -/
theorem runs_statements (hEnough : IsEnough source.read Enough) {depth : Nat} (stack : List Path)
    (task : Task) (tasks : List Task) (rules : ParsedRules) (asked : List Path)
    (hDepth : Enough depth ⟨task :: tasks, stack, .ok rules, asked⟩) :
    ∃ asked', Reader.Runs source.read ⟨task :: tasks, stack, .ok rules, asked⟩
      ⟨tasks, stack.tail, (task.outcome source depth stack rules).result, asked'⟩ := by
  -- on the depth, and then on the statements: an imported file is read with less depth
  induction depth generalizing stack task tasks rules asked with
  | zero => exact absurd hDepth (hEnough.pos _)
  | succ depth ihDepth =>
    obtain ⟨path, outer, group, statements, fault?⟩ := task
    induction statements generalizing group rules asked with
    | nil =>
      cases fault? with
      | none => exact ⟨asked, .single (Reader.step?_iff.mpr .finish)⟩
      | some fault =>
        exact ⟨asked, .head (Reader.step?_iff.mpr .fault) (.single (Reader.step?_iff.mpr .unwind))⟩
    | cons statement rest ih =>
      cases statement with
      | header name =>
        have hNext := hEnough.stay _ _ _ hDepth (.single (Reader.step?_iff.mpr .header)) rfl
        obtain ⟨asked', hRuns⟩ := ih _ _ _ hNext
        exact ⟨asked', .head (Reader.step?_iff.mpr .header) hRuns⟩
      | rule spec kind fields line =>
        have hNext := hEnough.stay _ _ _ hDepth (.single (Reader.step?_iff.mpr .rule)) rfl
        obtain ⟨asked', hRuns⟩ := ih _ _ _ hNext
        exact ⟨asked', .head (Reader.step?_iff.mpr .rule) hRuns⟩
      | importFile file line =>
        let s : ImportSite := ⟨⟨path, outer, group, rest, fault?⟩, tasks, stack, rules, asked, file, line⟩
        by_cases hCycle : s.IsCycle
        · -- the import fails, and the call returns its error
          refine ⟨asked, .head (Reader.step?_iff.mpr (.cycle s hCycle)) ?_⟩
          have hOutcome : (Task.outcome source (depth + 1) stack
              ⟨path, outer, group, .importFile file line :: rest, fault?⟩ rules).result =
              .error (.importCycle path line s.target) :=
            ImportSite.outcome_of_isCycle hCycle source (depth + 1)
          rw [hOutcome]
          exact .single (Reader.step?_iff.mpr .unwind)
        · -- the import is carried out, and the call goes on with what it gives
          obtain ⟨asked', hImport⟩ := runs_import hEnough ihDepth hCycle hDepth
          have hOutcome : (Task.outcome source (depth + 1) stack
              ⟨path, outer, group, .importFile file line :: rest, fault?⟩ rules).result =
              (s.outcome source (depth + 1)).result.bind fun gathered =>
                (s.task.outcome source (depth + 1) stack gathered).result :=
            ImportSite.outcome_of_not_isCycle hCycle source (depth + 1)
          rw [hOutcome]
          cases hResult : (s.outcome source (depth + 1)).result with
          | error e =>
            rw [hResult] at hImport
            exact ⟨asked', hImport.trans (.single (Reader.step?_iff.mpr .unwind))⟩
          | ok gathered =>
            rw [hResult] at hImport
            obtain ⟨asked'', hRuns⟩ := ih _ _ _ (hEnough.stay _ _ _ hDepth hImport rfl)
            exact ⟨asked'', hImport.trans hRuns⟩

end

end RuleFile

end RefRules
