import RefRules.Proofs.ImportDepth

/-!
# RefRules — spellings of a file

The import stack never holds a path twice; that it never holds a file twice is another matter. A file
that imports itself by a path through a directory and back is opened again, and again by a longer path,
until the paths are too long to be read.

Main results:

* `RuleFile.spellsAlike_of_isWrittenPlainly` — plain imports spell every file in one way;
* `RuleFile.opensOnce_iff` — no file is opened twice exactly when every import of a file that is being
  read spells it as it was spelled before.
-/

namespace RefRules

namespace RuleFile

/-- What a text consists of, up to the first fault. -/
def statementsOf (text : String) : List Statement :=
  (Task.ofText ⟨""⟩ none text).statements

theorem Task.ofText_statements (path : Path) (outer : Option String) (text : String) :
    (Task.ofText path outer text).statements = statementsOf text := by
  unfold statementsOf Task.ofText
  cases Token.scan text with
  | error fault => rfl
  | ok tokens => rfl

theorem Task.ofText_of_states {text : String} {statements : List Statement}
    (h : TextStates text statements) (path : Path) (outer : Option String) :
    Task.ofText path outer text = ⟨path, outer, outer.getD anonymousGroup, statements, none⟩ := by
  obtain ⟨tokens, hScan, hTokens⟩ := h
  unfold Task.ofText
  rw [hScan]
  simp only [Statement.all_eq_iff.mpr hTokens]

/-! ## Files that are open -/

/-- While a call is served, no file is open twice, there are never more files open than there are, and
an import of a file that is open makes the call fail with a cycle at that import. -/
structure OpensOnce (t : FileTree) (call : Call) : Prop where
  distinct : ∀ r, call.Reaches t r → r.stack.Pairwise fun p q => ¬t.SameFile p q
  bounded : ∀ r, call.Reaches t r → r.stack.length ≤ t.count + call.outside
  cycle : ∀ s : ImportSite, call.Reaches t s.reader → (∃ p ∈ s.stack, t.SameFile p s.target) →
    call.answer t.files.ruleSource = .error (.importCycle s.task.path s.line s.target)

/-- An import of a file that is open spells it as a path on the stack. -/
def SpellsAlike (t : FileTree) (call : Call) : Prop :=
  ∀ s : ImportSite, call.Reaches t s.reader → (∃ p ∈ s.stack, t.SameFile p s.target) → s.IsCycle

section

variable {t : FileTree} {call : Call}

/-- Where cycles are recognised by the path, no file is opened again by another. -/
theorem SpellsAlike.pairwise (h : SpellsAlike t call) {r : Reader} (hReaches : call.Reaches t r) :
    r.stack.Pairwise fun p q => ¬t.SameFile p q := by
  -- a file on top is new by its path, so it is no other file under a new path
  refine Reader.Runs.stack_induction hReaches ?_ ?_ ?_
  · cases call with
    | text path contents => exact List.pairwise_singleton _ _
    | file path =>
      rw [Call.open]
      split
      · exact .nil
      · exact List.pairwise_singleton _ _
  · intro stack hStack
    exact hStack.tail
  · intro s text hSite hCycle _ hStack
    refine List.pairwise_cons.mpr ⟨fun p hp hSame => ?_, hStack⟩
    exact hCycle (h s hSite ⟨p, hp, hSame.symm⟩)

theorem SpellsAlike.opensOnce (h : SpellsAlike t call) : OpensOnce t call := by
  refine ⟨fun r hReaches => h.pairwise hReaches, fun r hReaches => ?_, ?_⟩
  · obtain ⟨opened, below, hStack, hBelow, hOpened, -⟩ := hReaches.isNested
    -- the files that were opened are different ones of the tree
    have hDistinct := h.pairwise hReaches
    rw [hStack, List.pairwise_append] at hDistinct
    have hLength : opened.length ≤ t.count := FileTree.length_le_count hDistinct.1 hOpened
    rw [hStack, List.length_append]
    omega
  · intro s hReaches hSame
    obtain ⟨last, hEnds, hResult, -⟩ := ImportSite.exists_ends_of_isCycle (h s hReaches hSame)
    rw [Call.answer_eq (Reader.Runs.ends hReaches hEnds), hResult]

theorem OpensOnce.spellsAlike (h : OpensOnce t call) : SpellsAlike t call := by
  rintro s hReaches ⟨p, hp, hSame⟩
  by_contra hCycle
  cases hRead : t.files.readText s.target with
  | ok text =>
    -- the file is opened again
    have hEntered : call.Reaches t (s.entered text) :=
      hReaches.tail (Reader.step?_iff.mpr (.enter s hCycle hRead))
    have hDistinct := h.distinct _ hEntered
    exact (List.pairwise_cons.mp hDistinct).1 p hp hSame.symm
  | error cause =>
    -- the call fails here, but not with a cycle
    have hStep : call.Reaches t (s.after (.error (.unreadable s.target cause)) (s.target :: s.asked)) :=
      hReaches.tail (Reader.step?_iff.mpr (.unreadable s hCycle hRead))
    have hAnswer := h.cycle s hReaches ⟨p, hp, hSame⟩
    rw [Call.answer_eq (Reader.Runs.ends hStep (Reader.ends_of_error _ _ _ _))] at hAnswer
    cases hAnswer

end

/-! ## Plain imports -/

/-- All imports in a text are by plain paths. -/
def ImportsPlainly (text : String) : Prop :=
  ∀ file line, .importFile file line ∈ statementsOf text → Path.IsPlain ⟨file⟩

/-- The path of a call, the text that it brings along, and the files have plain paths only. -/
structure IsWrittenPlainly (t : FileTree) (call : Call) : Prop where
  path : ∀ path, call = .file path → path.IsPlain
  text : ∀ path contents, call = .text path contents → path.IsPlain ∧ ImportsPlainly contents
  files : ∀ file ∈ t, ∀ text, String.fromUTF8? file.2 = some text → ImportsPlainly text

/-- The path of the file and what is left of its imports are plain. -/
structure Task.IsPlain (task : Task) : Prop where
  path : task.path.IsPlain
  imports : ∀ file line, .importFile file line ∈ task.statements → Path.IsPlain ⟨file⟩

/-- A call that goes on in its file stays plain. -/
theorem Task.IsPlain.of_subset {task task' : Task} (h : task.IsPlain) (hPath : task'.path = task.path)
    (hStatements : task'.statements ⊆ task.statements) : task'.IsPlain := by
  refine ⟨?_, fun file line hMem => h.imports file line (hStatements hMem)⟩
  rw [hPath]
  exact h.path

theorem Task.isPlain_ofText {path : Path} {text : String} (hPath : path.IsPlain)
    (hText : ImportsPlainly text) (outer : Option String) : (Task.ofText path outer text).IsPlain := by
  refine ⟨?_, ?_⟩
  · rw [Task.ofText_path]
    exact hPath
  · rw [Task.ofText_statements]
    exact hText

theorem ImportSite.isPlain_target {s : ImportSite}
    (h : ∀ task ∈ s.reader.tasks, task.IsPlain) : s.target.IsPlain := by
  have hTask := h _ List.mem_cons_self
  exact hTask.path.sibling (hTask.imports s.file s.line List.mem_cons_self)

/-- The innermost call goes on behind its first statement, and all calls stay plain. -/
theorem Task.forall_isPlain_cons {task task' : Task} {tasks : List Task} {statement : Statement}
    (h : ∀ t ∈ task :: tasks, t.IsPlain) (hPath : task'.path = task.path)
    (hStatements : task.statements = statement :: task'.statements) :
    ∀ t ∈ task' :: tasks, t.IsPlain := by
  obtain ⟨hTask, hTail⟩ := List.forall_mem_cons.mp h
  have hSubset : task'.statements ⊆ task.statements := by
    rw [hStatements]
    exact List.subset_cons_self _ _
  exact List.forall_mem_cons.mpr ⟨hTask.of_subset hPath hSubset, hTail⟩

theorem ImportSite.forall_isPlain_tasks (s : ImportSite) (h : ∀ task ∈ s.reader.tasks, task.IsPlain) :
    ∀ task ∈ s.task :: s.tasks, task.IsPlain :=
  Task.forall_isPlain_cons h rfl rfl

section

variable {t : FileTree} {call : Call}

/-- **Step lemma.** -/
theorem isPlain_of_step {r r' : Reader}
    (hFiles : ∀ file ∈ t, ∀ text, String.fromUTF8? file.2 = some text → ImportsPlainly text)
    (h : ∀ task ∈ r.tasks, task.IsPlain) (hStep : Reader.Step t.files.readText r r') :
    ∀ task ∈ r'.tasks, task.IsPlain := by
  cases hStep with
  | unwind => exact (List.forall_mem_cons.mp h).2
  | finish => exact (List.forall_mem_cons.mp h).2
  | fault => exact h
  | header => exact Task.forall_isPlain_cons h rfl rfl
  | rule => exact Task.forall_isPlain_cons h rfl rfl
  | cycle s hCycle => exact s.forall_isPlain_tasks h
  | unreadable s hCycle hRead => exact s.forall_isPlain_tasks h
  | enter s hCycle hRead =>
    -- the opened file is one of the tree, and its path was named by a plain import
    obtain ⟨file, hFile, -, hText⟩ := FileTree.exists_file_of_readText hRead
    have hOpened := Task.isPlain_ofText (ImportSite.isPlain_target h) (hFiles file hFile _ hText)
    exact List.forall_mem_cons.mpr ⟨hOpened _, s.forall_isPlain_tasks h⟩

/-- **Run lemma.** -/
theorem IsWrittenPlainly.isPlain (h : IsWrittenPlainly t call) {r : Reader}
    (hReaches : call.Reaches t r) : ∀ task ∈ r.tasks, task.IsPlain := by
  induction hReaches with
  | refl =>
    cases call with
    | text path contents =>
      obtain ⟨hPath, hText⟩ := h.text path contents rfl
      exact List.forall_mem_singleton.mpr (Task.isPlain_ofText hPath hText none)
    | file path =>
      rw [Call.open]
      cases hRead : t.files.readText path with
      | error cause => exact List.forall_mem_nil _
      | ok contents =>
        obtain ⟨file, hFile, -, hText⟩ := FileTree.exists_file_of_readText hRead
        have hImports := h.files file hFile contents hText
        exact List.forall_mem_singleton.mpr (Task.isPlain_ofText (h.path path rfl) hImports none)
  | tail _ hStep ih => exact isPlain_of_step h.files ih (Reader.step?_iff.mp hStep)

/-- Plain imports spell every file in one way. -/
theorem spellsAlike_of_isWrittenPlainly (h : IsWrittenPlainly t call) : SpellsAlike t call := by
  rintro s hReaches ⟨p, hp, hSame⟩
  have hTasks := h.isPlain hReaches
  have hStack : s.stack = s.reader.tasks.map (·.path) := hReaches.inv.stack_eq
  rw [hStack] at hp
  -- the file on the stack is that of a call, and both paths are plain
  obtain ⟨task, hTask, rfl⟩ := List.mem_map.mp hp
  have hSpelled : task.path.same s.target = true :=
    FileTree.same_of_isPlain (hTasks task hTask).path (ImportSite.isPlain_target hTasks) hSame
  refine ⟨task.path, ?_, hSpelled⟩
  rw [hStack]
  exact hp

end

/-- **Files are opened once where they are spelled in one way.** Over a tree of files every call ends,
with the answer that reading is defined to have. No file is open twice, no more files are open than
there are, and the answer is a cycle at the import that closes it, exactly when every import of a file
that is open spells it as it was spelled before. This holds of all trees and calls without paths that
lead back or begin with a dot. -/
theorem opensOnce_iff (t : FileTree) (call : Call) :
    (∃ last, (call.open t.files.readText []).Ends t.files.readText last ∧ last.stack = [] ∧
      last.result = call.answer t.files.ruleSource) ∧
    (OpensOnce t call ↔ SpellsAlike t call) ∧
    (IsWrittenPlainly t call → OpensOnce t call) :=
  ⟨call.ends_in_tree t, ⟨OpensOnce.spellsAlike, SpellsAlike.opensOnce⟩,
    fun h => (spellsAlike_of_isWrittenPlainly h).opensOnce⟩

/-- A text with an import alone. -/
theorem textStates_import_main : TextStates "IMPORT \"main.rcl\"" [.importFile "main.rcl" 1] :=
  ⟨[⟨.ident "IMPORT", 1⟩, ⟨.string "main.rcl", 1⟩], by decide +kernel, Statement.all_eq_iff.mp rfl⟩

/-- A file that imports itself by its name. -/
def ringTree : FileTree :=
  [(["main.rcl".toList], "IMPORT \"main.rcl\"".toUTF8)]

theorem opensOnce_ringTree :
    IsWrittenPlainly ringTree (.file ⟨"main.rcl"⟩) ∧ OpensOnce ringTree (.file ⟨"main.rcl"⟩) := by
  have hPlain : IsWrittenPlainly ringTree (.file ⟨"main.rcl"⟩) := by
    refine ⟨?_, fun path contents hCall => (nomatch hCall), ?_⟩
    · rintro path hCall
      cases hCall
      decide
    · rintro file hFile text hText
      obtain rfl := List.mem_singleton.mp hFile
      have hBytes : String.fromUTF8? "IMPORT \"main.rcl\"".toUTF8 = some "IMPORT \"main.rcl\"" := by
        decide +kernel
      obtain rfl := Option.some.inj (hBytes.symm.trans hText)
      intro file line hMem
      rw [statementsOf, Task.ofText_of_states textStates_import_main, List.mem_singleton] at hMem
      cases hMem
      decide
  exact ⟨hPlain, (opensOnce_iff _ _).2.2 hPlain⟩

/-- A file that imports itself through a directory and back. -/
def detourTree : FileTree :=
  [(["main.rcl".toList], "IMPORT \"d/../main.rcl\"".toUTF8), (["d".toList, "x.rcl".toList], "".toUTF8)]

/-- The import of the file in itself, when it is read for the first time. -/
def detourSite : ImportSite :=
  ⟨⟨⟨"main.rcl"⟩, none, anonymousGroup, [], none⟩, [], [⟨"main.rcl"⟩], [], [⟨"main.rcl"⟩],
    "d/../main.rcl", 1⟩

/-- The file is opened again before it is read. -/
theorem not_opensOnce_detour : ¬OpensOnce detourTree (.file ⟨"main.rcl"⟩) := by
  intro h
  have hStates : TextStates "IMPORT \"d/../main.rcl\"" [.importFile "d/../main.rcl" 1] :=
    ⟨[⟨.ident "IMPORT", 1⟩, ⟨.string "d/../main.rcl", 1⟩], by decide +kernel,
      Statement.all_eq_iff.mp rfl⟩
  have hRead : detourTree.files.readText ⟨"main.rcl"⟩ = .ok "IMPORT \"d/../main.rcl\"" := by
    decide +kernel
  have hOpen : Call.open detourTree.files.readText [] (.file ⟨"main.rcl"⟩) = detourSite.reader := by
    simp only [Call.open, hRead, Task.ofText_of_states hStates]
    rfl
  have hReaches : Call.Reaches detourTree (.file ⟨"main.rcl"⟩) detourSite.reader := by
    rw [Call.Reaches, hOpen]
    exact .refl
  have hSame : detourTree.SameFile ⟨"main.rcl"⟩ detourSite.target :=
    ⟨["main.rcl".toList], by decide +kernel, by decide +kernel⟩
  -- the paths have different components, although they lead to one file
  have hCycle : detourSite.IsCycle :=
    h.spellsAlike detourSite hReaches ⟨_, List.mem_singleton_self _, hSame⟩
  revert hCycle
  decide +kernel

end RuleFile

end RefRules
