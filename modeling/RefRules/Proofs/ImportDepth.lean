import RefRules.Proofs.ImportStack
import RefRules.Proofs.PlainPaths

/-!
# RefRules — how deep imports nest in a tree

Reading is bounded by a depth, and in a tree of files the bound is never met. A file is imported beside
the file that imports it, so along the import stack the directories of the paths only grow. A path has
only so many segments, and with the same directories before them there are only so many files, none of
them twice.

Main results:

* `FileTree.directories_prefix` — an imported file lies in the directory of its importer, or below;
* `RuleFile.Call.Reaches.length_lt` — there are fewer files on the import stack than the bound;
* `RuleFile.Call.ends_in_tree` — so every call ends, with the answer that reading is defined to have.
-/

namespace RefRules

open Text

/-! ## Segments that count -/

namespace Path

theorem countingSegments_append {first second : List Name} (hSome : first ≠ []) :
    countingSegments false (first ++ second) =
      countingSegments false first ++ second.filter fun s => !isSilent s := by
  cases first with
  | nil => exact absurd rfl hSome
  | cons segment first =>
    simp only [List.cons_append, countingSegments, Bool.false_and, Bool.or_false, List.filter_append]
    split <;> rfl

theorem countingSegments_prefix (first second : List Name) :
    countingSegments false first <+: countingSegments false (first ++ second) := by
  cases first with
  | nil => exact List.nil_prefix
  | cons segment first =>
    rw [countingSegments_append (List.cons_ne_nil _ _)]
    exact List.prefix_append _ _

/-- A name at the end counts. -/
theorem countingSegments_concat {name : Name} (hCounts : isSilent name = false) (segments : List Name) :
    countingSegments false (segments ++ [name]) = countingSegments false segments ++ [name] := by
  cases segments with
  | nil =>
    have hSome : name.isEmpty = false := (Bool.or_eq_false_iff.mp hCounts).1
    simp [countingSegments, hSome]
  | cons segment segments =>
    rw [countingSegments_append (List.cons_ne_nil _ _)]
    simp [hCounts]

/-- Silent segments at the end do not count, unless there are no others. -/
theorem countingSegments_dropSilent (segments : List Name) :
    countingSegments false (dropSilent segments).reverse = countingSegments false segments.reverse := by
  -- on the segments from the end; the first one is never dropped
  induction segments using dropSilent.induct with
  | case1 => rfl
  | case2 => rfl
  | case3 last rest hRest hSilent ih =>
    have hSome : rest.reverse ≠ [] := by
      rw [ne_eq, List.reverse_eq_nil_iff]
      rintro rfl
      exact hRest rfl
    rw [dropSilent, if_pos hSilent, ih, List.reverse_cons, countingSegments_append hSome]
    · simp [hSilent]
    · exact hRest
  | case4 last rest hRest hSounds =>
    rw [dropSilent, if_neg hSounds]
    exact hRest

theorem dropSilent_ne_nil (last : Name) (rest : List Name) : dropSilent (last :: rest) ≠ [] := by
  induction rest generalizing last with
  | nil => exact List.cons_ne_nil _ _
  | cons next rest ih =>
    rw [dropSilent]
    · split
      · exact ih next
      · exact List.cons_ne_nil _ _
    · exact List.cons_ne_nil _ _

theorem length_countingSegments_le (segments : List Name) :
    (countingSegments false segments).length ≤ segments.length := by
  cases segments with
  | nil => exact Nat.le_refl 0
  | cons segment segments =>
    have hFilter := List.length_filter_le (fun s => !isSilent s) segments
    rw [countingSegments]
    split
    · rw [List.length_cons]
      omega
    · rw [List.length_cons, List.length_cons]
      omega

theorem length_segments_le (p : Path) : p.segments.length ≤ p.text.utf8ByteSize + 1 := by
  -- every part but the last one has a slash behind it, which is a byte
  have hParts : ∀ cs : List Char, (splitAll '/' cs).length ≤ String.utf8Len cs + 1 := by
    intro cs
    induction cs with
    | nil => exact Nat.le_refl 1
    | cons c cs ih =>
      have hSize : 0 < c.utf8Size := c.utf8Size_pos
      rw [splitAll, String.utf8Len_cons]
      split
      · simp
      · next part parts hSplit =>
        rw [hSplit, List.length_cons] at ih
        split
        · simp only [List.length_cons]
          omega
        · simp only [List.length_cons]
          omega
  have hText := hParts p.text.toList
  rw [← String.utf8ByteSize_ofList, String.ofList_toList] at hText
  exact hText

/-! ## Directories -/

/-- The segments of the directory that a path lies in, as far as they count. -/
def directories (p : Path) : List Name :=
  p.components.2.dropLast

/-- The path is relative, and a name stands at its end that counts. -/
structure EndsIn (p : Path) (before : List Name) (name : Name) : Prop where
  relative : p.isAbsolute = false
  segments_eq : p.segments = before ++ [name]
  counts : isSilent name = false

theorem EndsIn.components_eq {p : Path} {before : List Name} {name : Name} (h : p.EndsIn before name) :
    p.components = (false, countingSegments false before ++ [name]) := by
  rw [components, h.relative, h.segments_eq, countingSegments_concat h.counts]

theorem EndsIn.directories_eq {p : Path} {before : List Name} {name : Name} (h : p.EndsIn before name) :
    p.directories = countingSegments false before := by
  rw [directories, h.components_eq, List.dropLast_concat]

theorem exists_segments_join (p : Path) {relative : Path} (hRelative : relative.isAbsolute = false) :
    ∃ before, (p.join relative).segments = before ++ relative.segments ∧
      countingSegments false before = countingSegments false p.segments := by
  obtain ⟨before, hSegments, hBefore⟩ := segments_join p hRelative
  refine ⟨before, hSegments, ?_⟩
  rcases hBefore with hSame | hSlash
  · rw [hSame]
  · -- the empty segment behind a slash does not count
    rw [hSlash]
    cases before with
    | nil => rfl
    | cons segment before =>
      rw [countingSegments_append (List.cons_ne_nil _ _)]
      exact (List.append_nil _).symm

/-- The directory of a path has the segments before the last, as far as they count. -/
theorem EndsIn.exists_parent {p : Path} {before : List Name} {name : Name} (h : p.EndsIn before name) :
    ∃ directory, p.parent? = some directory ∧
      countingSegments false directory.segments = p.directories := by
  have hSome : name.isEmpty = false := (Bool.or_eq_false_iff.mp h.counts).1
  have hReversed : p.segments.reverse = name :: before.reverse := by
    rw [h.segments_eq, List.reverse_append]
    rfl
  rw [h.directories_eq]
  cases hFirst : before.reverse with
  | nil =>
    -- a name alone lies in the empty path
    rw [List.reverse_eq_nil_iff] at hFirst
    refine ⟨⟨""⟩, ?_, by rw [hFirst]; rfl⟩
    rw [parent?, hReversed, h.relative, hFirst]
    simp [dropSilent, hSome]
  | cons last rest =>
    -- the directory is made of the segments before the name, without the silent ones at the end
    have hSuffix : dropSilent (last :: rest) <:+ before.reverse := hFirst ▸ dropSilent_suffix _
    have hNoSlash : ∀ segment ∈ (dropSilent (last :: rest)).reverse, '/' ∉ segment := by
      intro segment hMem
      have hIn : segment ∈ before := List.mem_reverse.mp (hSuffix.subset (List.mem_reverse.mp hMem))
      exact not_mem_of_mem_segments (h.segments_eq ▸ List.mem_append_left _ hIn)
    have hKept : (dropSilent (last :: rest)).reverse ≠ [] := by
      rw [ne_eq, List.reverse_eq_nil_iff]
      exact dropSilent_ne_nil last rest
    refine ⟨ofSegments (dropSilent (last :: rest)).reverse, ?_, ?_⟩
    · rw [parent?, hReversed, h.relative, hFirst]
      simp [dropSilent, h.counts]
    · rw [segments_ofSegments hKept hNoSlash, countingSegments_dropSilent, ← hFirst,
        List.reverse_reverse]

/-- What is named beside a path lies in its directory or below. -/
theorem EndsIn.directories_sibling {p relative : Path} {before before' : List Name} {name name' : Name}
    (h : p.EndsIn before name) (h' : (p.sibling relative).EndsIn before' name') :
    p.directories <+: (p.sibling relative).directories := by
  obtain ⟨directory, hParent, hDirectory⟩ := h.exists_parent
  have hSibling : p.sibling relative = directory.join relative := by
    rw [sibling, hParent]
  -- an absolute path would stand for itself
  have hRelative : relative.isAbsolute = false := by
    cases hAbsolute : relative.isAbsolute with
    | false => rfl
    | true =>
      have hItself := h'.relative
      rw [hSibling, join, if_pos hAbsolute, hAbsolute] at hItself
      cases hItself
  obtain ⟨outer, hJoined, hOuter⟩ := exists_segments_join directory hRelative
  have hSegments := h'.segments_eq
  rw [hSibling, hJoined] at hSegments
  -- the last segment is one of the relative path
  obtain ⟨below, hBelow⟩ : ∃ below, before' = outer ++ below := by
    rcases List.append_eq_append_iff.mp hSegments with ⟨below, hBelow, -⟩ | ⟨more, hMore, hName⟩
    · exact ⟨below, hBelow⟩
    · obtain ⟨first, rest, hRest⟩ := List.exists_cons_of_ne_nil (segments_ne_nil relative)
      have hLength := congrArg List.length hName
      simp only [hRest, List.length_append, List.length_cons, List.length_nil] at hLength
      have hNone : more = [] := List.length_eq_zero_iff.mp (by omega)
      exact ⟨[], by rw [hMore, hNone, List.append_nil, List.append_nil]⟩
  rw [← hDirectory, ← hOuter, h'.directories_eq, hBelow]
  exact countingSegments_prefix outer below

end Path

/-! ## Files of a tree -/

namespace FileTree

variable {t : FileTree}

/-- A path that leads to a file ends in its name. -/
theorem exists_endsIn {p : Path} {names : List Name} (h : t.locate? p = some names) :
    ∃ before name, p.EndsIn before name ∧ names.getLast? = some name := by
  obtain ⟨hRelative, -, hFrom⟩ := locateFrom?_of_locate? h
  obtain ⟨before, name, hSegments, hCounts, hLast⟩ := exists_name_of_locateFrom? hFrom
  exact ⟨before, name, ⟨hRelative, hSegments, hCounts⟩, hLast⟩

/-- An imported file lies in the directory of its importer, or below. -/
theorem directories_prefix {p relative : Path} {names names' : List Name}
    (h : t.locate? p = some names) (h' : t.locate? (p.sibling relative) = some names') :
    p.directories <+: (p.sibling relative).directories := by
  obtain ⟨_, _, hEnds, -⟩ := exists_endsIn h
  obtain ⟨_, _, hEnds', -⟩ := exists_endsIn h'
  exact hEnds.directories_sibling hEnds'

/-- Paths to one file with the same directories are the same. -/
theorem same_of_directories {p q : Path} {names : List Name} (hp : t.locate? p = some names)
    (hq : t.locate? q = some names) (hDirectories : p.directories = q.directories) :
    p.normal = q.normal := by
  obtain ⟨before, name, hEnds, hLast⟩ := exists_endsIn hp
  obtain ⟨before', name', hEnds', hLast'⟩ := exists_endsIn hq
  obtain rfl : name = name' := Option.some.inj (hLast.symm.trans hLast')
  rw [hEnds.directories_eq, hEnds'.directories_eq] at hDirectories
  rw [Path.normal, Path.normal, hEnds.components_eq, hEnds'.components_eq, hDirectories]

theorem length_directories_lt {p : Path} {names : List Name} (h : t.locate? p = some names) :
    p.directories.length < Files.pathLimit + 1 := by
  obtain ⟨hRelative, hShort, -⟩ := locateFrom?_of_locate? h
  have hCounting : p.components.2.length ≤ p.segments.length := by
    rw [Path.components, hRelative]
    exact Path.length_countingSegments_le p.segments
  have hSegments := p.length_segments_le
  rw [Path.directories, List.length_dropLast]
  omega

/-- Different paths that can be read, each in the directory of the next or below, are at most as many
as the lengths of paths times the files. -/
theorem length_le_of_pairwise {paths : List Path}
    (hRead : ∀ p ∈ paths, ∃ text, t.files.readText p = .ok text)
    (hNodup : (paths.map Path.normal).Nodup)
    (hNested : paths.Pairwise fun p q => q.directories <+: p.directories) :
    paths.length ≤ (Files.pathLimit + 1) * t.length := by
  -- the number of directories and the file tell the paths apart
  let place (p : Path) : Nat × Option (List Name) := (p.directories.length, t.locate? p)
  have hApart : (paths.map place).Nodup := by
    refine List.pairwise_map.mpr ((hNested.and (List.pairwise_map.mp hNodup)).imp_of_mem ?_)
    rintro p q hp hq ⟨hPrefix, hOther⟩ hSame
    obtain ⟨text, hText⟩ := hRead p hp
    obtain ⟨file, -, hNames, -⟩ := exists_file_of_readText hText
    obtain ⟨hLength, hFile⟩ := Prod.mk.inj hSame
    have hDirectories : q.directories = p.directories := hPrefix.eq_of_length hLength.symm
    exact hOther (same_of_directories hNames (hFile ▸ hNames) hDirectories.symm)
  have hSubset : paths.map place ⊆
      List.range (Files.pathLimit + 1) ×ˢ t.map fun file => some file.1 := by
    intro pair hPair
    obtain ⟨p, hp, rfl⟩ := List.mem_map.mp hPair
    obtain ⟨text, hText⟩ := hRead p hp
    obtain ⟨file, hFile, hNames, -⟩ := exists_file_of_readText hText
    refine List.mem_product.mpr ⟨List.mem_range.mpr (length_directories_lt hNames), ?_⟩
    rw [hNames]
    exact List.mem_map_of_mem hFile
  have hLength := (hApart.subperm hSubset).length_le
  rw [List.length_map, List.length_product, List.length_range, List.length_map] at hLength
  exact hLength

end FileTree

namespace RuleFile

/-! ## The stack over a tree -/

/-- What is kept when a file is taken from the import stack, and when one is opened, holds of the stack
at all times. -/
theorem Reader.Runs.stack_induction {read : Path → Except FileError String} {P : List Path → Prop}
    {start r : Reader} (hRuns : start.Runs read r) (hStart : P start.stack)
    (hPop : ∀ stack, P stack → P stack.tail)
    (hPush : ∀ (s : ImportSite) (text : String), start.Runs read s.reader → ¬s.IsCycle →
      read s.target = .ok text → P s.stack → P (s.target :: s.stack)) : P r.stack := by
  -- on the steps; only three of them change the stack
  induction hRuns with
  | refl => exact hStart
  | tail hBefore hStep ih =>
    cases Reader.step?_iff.mp hStep with
    | unwind => exact hPop _ ih
    | finish => exact hPop _ ih
    | enter s hCycle hRead => exact hPush s _ hBefore hCycle hRead ih
    | _ => exact ih

/-- While the parser serves a call on the files of a tree, it comes to this point. -/
def Call.Reaches (t : FileTree) (call : Call) (r : Reader) : Prop :=
  (call.open t.files.readText []).Runs t.files.readText r

/-- How many texts a call reads besides the files of a tree. -/
def Call.outside : Call → Nat
  | .file _ => 0
  | .text _ _ => 1

section

variable {t : FileTree} {call : Call}

theorem Call.Reaches.inv {r : Reader} (h : call.Reaches t r) : r.Inv t.files.readText :=
  call.open_inv.run h

/-- The stack holds files that were opened, each in the directory of the next or below, and at the
bottom at most a text from outside. -/
structure IsNested (t : FileTree) (call : Call) (stack opened below : List Path) : Prop where
  stack_eq : stack = opened ++ below
  below_le : below.length ≤ call.outside
  isRead : ∀ p ∈ opened, ∃ text, t.files.readText p = .ok text
  nested : opened.Pairwise fun p q => q.directories <+: p.directories

/-- A file that is imported by the last one opened goes on top. -/
theorem IsNested.push {s : ImportSite} {opened below : List Path} {text : String}
    (h : IsNested t call s.stack opened below) (hSite : call.Reaches t s.reader)
    (hRead : t.files.readText s.target = .ok text) :
    IsNested t call (s.target :: s.stack) (s.target :: opened) below := by
  obtain ⟨hStack, hBelow, hOpened, hNested⟩ := h
  refine ⟨by rw [hStack, List.cons_append], hBelow,
    List.forall_mem_cons.mpr ⟨⟨text, hRead⟩, hOpened⟩, List.pairwise_cons.mpr ⟨?_, hNested⟩⟩
  cases opened with
  | nil => simp
  | cons importer opened =>
    have hTop : s.stack = s.task.path :: s.tasks.map (·.path) := hSite.inv.stack_eq
    obtain rfl : importer = s.task.path := (List.cons.inj (hStack.symm.trans hTop)).1
    obtain ⟨importing, hImporting⟩ := hOpened _ List.mem_cons_self
    obtain ⟨_, -, hFrom, -⟩ := FileTree.exists_file_of_readText hImporting
    obtain ⟨_, -, hTo, -⟩ := FileTree.exists_file_of_readText hRead
    have hPrefix : s.task.path.directories <+: s.target.directories :=
      FileTree.directories_prefix hFrom hTo
    -- and the importer lies below the directories of the others
    intro q hq
    rcases List.mem_cons.mp hq with rfl | hLater
    · exact hPrefix
    · exact ((List.pairwise_cons.mp hNested).1 q hLater).trans hPrefix

theorem Call.Reaches.isNested {r : Reader} (h : call.Reaches t r) :
    ∃ opened below, IsNested t call r.stack opened below := by
  -- the first stack, one with a file less, and one with a file more
  refine Reader.Runs.stack_induction (P := fun stack => ∃ opened below, IsNested t call stack opened below)
    h ?_ ?_ ?_
  · cases call with
    | text path contents => exact ⟨[], [path], rfl, Nat.le_refl 1, by simp, .nil⟩
    | file path =>
      rw [Call.open]
      cases hRead : t.files.readText path with
      | error cause => exact ⟨[], [], rfl, Nat.zero_le _, by simp, .nil⟩
      | ok contents =>
        exact ⟨[path], [], rfl, Nat.zero_le _, by simp [hRead], List.pairwise_singleton _ _⟩
  · rintro _ ⟨opened, below, rfl, hBelow, hOpened, hNested⟩
    cases opened with
    | nil =>
      -- the text from outside is taken from the stack last
      refine ⟨[], below.tail, rfl, ?_, by simp, .nil⟩
      rw [List.length_tail]
      omega
    | cons p opened =>
      exact ⟨opened, below, rfl, hBelow, fun q hq => hOpened q (.tail p hq), hNested.tail⟩
  · rintro s text hSite - hRead ⟨opened, below, hStack⟩
    exact ⟨s.target :: opened, below, hStack.push hSite hRead⟩

theorem Call.outside_le (call : Call) : call.outside ≤ 1 := by
  cases call with
  | file path => exact Nat.zero_le 1
  | text path contents => exact Nat.le_refl 1

/-- The import stack stays below the bound that reading has. -/
theorem Call.Reaches.length_lt {r : Reader} (h : call.Reaches t r) :
    r.stack.length < t.files.depth := by
  obtain ⟨opened, below, hStack, hBelow, hOpened, hNested⟩ := h.isNested
  have hNodup := h.inv.nodup
  rw [hStack, List.map_append] at hNodup
  have hLength := FileTree.length_le_of_pairwise hOpened hNodup.of_append_left hNested
  have hOutside := call.outside_le
  have hDepth : t.files.depth = (t.length + 1) * (Files.pathLimit + 2) := rfl
  rw [hStack, List.length_append, hDepth]
  simp only [Files.pathLimit] at hLength ⊢
  omega

end

/-- Where the stack is bounded, the bound is enough depth. -/
theorem isEnough_of_bounded {read : Path → Except FileError String} {start : Reader} {bound : Nat}
    (hBounded : ∀ r, start.Runs read r → r.stack.length < bound) :
    IsEnough read fun depth r => start.Runs read r ∧ bound ≤ r.stack.length + depth := by
  refine ⟨?_, ?_, ?_⟩
  · -- a reader without depth left would have a stack that none has
    rintro r ⟨hRuns, hBound⟩
    have hLess := hBounded r hRuns
    omega
  · rintro depth r r' ⟨hRuns, hBound⟩ hOn hStack
    refine ⟨hRuns.trans hOn, ?_⟩
    rw [hStack]
    exact hBound
  · rintro depth s text ⟨hRuns, hBound⟩ hCycle hRead
    refine ⟨hRuns.tail (Reader.step?_iff.mpr (.enter s hCycle hRead)), ?_⟩
    have hStack : (s.entered text).stack.length = s.reader.stack.length + 1 := rfl
    omega

/-- **Over a tree of files every call ends**, with the answer that reading is defined to have, and with
an empty import stack. -/
theorem Call.ends_in_tree (t : FileTree) (call : Call) :
    ∃ last, (call.open t.files.readText []).Ends t.files.readText last ∧ last.stack = [] ∧
      last.result = call.answer t.files.ruleSource := by
  have hBounded : ∀ r, (call.open t.files.ruleSource.read []).Runs t.files.ruleSource.read r →
      r.stack.length < t.files.depth := fun r hRuns => Call.Reaches.length_lt hRuns
  exact call.ends_of_isEnough (isEnough_of_bounded hBounded) ⟨.refl, Nat.le_add_left _ _⟩

/-- The end that a call comes to has its answer. -/
theorem Call.answer_eq {t : FileTree} {call : Call} {last : Reader}
    (hEnds : (call.open t.files.readText []).Ends t.files.readText last) :
    call.answer t.files.ruleSource = last.result := by
  obtain ⟨last', hEnds', -, hResult⟩ := call.ends_in_tree t
  rw [← hResult, hEnds.eq hEnds']

end RuleFile

end RefRules
