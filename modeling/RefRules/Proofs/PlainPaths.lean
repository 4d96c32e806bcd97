import RefRules.Files
import RefRules.Proofs.PathText
import Mathlib.Data.List.Dedup

/-!
# RefRules — plain paths

Paths are compared by their components, but a tree of files resolves them: a path that goes into a
directory and back leads to the same file by other components. A path is plain when nothing in it leads
back and it does not begin with a dot. Plain paths lead to what they name, so for them the two agree,
and a plain name beside a plain path is plain.

Main results:

* `FileTree.read_eq_ok_iff` — a path reads as the file that it leads to;
* `FileTree.same_of_isPlain` — plain paths to one file are the same;
* `Path.IsPlain.sibling` — what a plain path names beside a plain path is plain.
-/

namespace RefRules

namespace FileTree

/-! ## Where paths lead -/

/-- The names of the file that segments lead to from a directory. -/
def locateFrom? (t : FileTree) : Option (List Name) → List Name → Option (List Name)
  | _, [] => none
  | directory, segment :: rest =>
    if Path.isSilent segment then t.locateFrom? directory rest
    else if segment = ['.', '.'] then t.locateFrom? (directory.bind parentOf) rest
    else if isTooLong segment then none
    else
      match directory with
      | none => none
      | some names =>
        let names := names ++ [segment]
        match t.fileAt? names with
        | some _ => if rest.isEmpty then some names else none
        | none => if t.isDirectory names then t.locateFrom? (some names) rest else none

/-- The names of the file that a path leads to. -/
def locate? (t : FileTree) (p : Path) : Option (List Name) :=
  if p.text.toList.contains '\x00' then none
  else if Files.pathLimit < p.text.utf8ByteSize then none
  else if p.text.isEmpty then none
  else t.locateFrom? (if p.isAbsolute then none else some []) p.segments

/-- Two paths lead to one file. -/
def SameFile (t : FileTree) (p q : Path) : Prop :=
  ∃ names, t.locate? p = some names ∧ t.locate? q = some names

/-- The number of the files of a tree. -/
def count (t : FileTree) : Nat :=
  (t.map (·.1)).dedup.length

variable {t : FileTree}

/-- Segments are followed to the file that they lead to. -/
theorem follow_eq_ok_iff {directory : Option (List Name)} {segments : List Name} {bytes : ByteArray} :
    t.follow directory segments = .ok bytes ↔
      ∃ names, t.locateFrom? directory segments = some names ∧ t.fileAt? names = some bytes := by
  -- on the segments; each of them is silent, leads back, or names a file or a directory
  induction segments generalizing directory with
  | nil => simp [follow, locateFrom?]
  | cons segment rest ih =>
    rw [follow.eq_def, locateFrom?.eq_def]
    dsimp only
    split
    · exact ih
    · split
      · exact ih
      · split
        · simp
        · cases directory with
          | none => simp
          | some names =>
            dsimp only
            cases hFile : t.fileAt? (names ++ [segment]) with
            | some found =>
              cases hRest : rest.isEmpty with
              | true => simp [hFile]
              | false => simp
            | none =>
              cases hDirectory : t.isDirectory (names ++ [segment]) with
              | true => simpa using ih
              | false => simp

/-- A path reads as the file that it leads to. -/
theorem read_eq_ok_iff {p : Path} {bytes : ByteArray} :
    t.read p = .ok bytes ↔ ∃ names, t.locate? p = some names ∧ t.fileAt? names = some bytes := by
  unfold read locate?
  split
  · simp
  · split
    · simp
    · split
      · simp
      · exact follow_eq_ok_iff

/-- The text of a path is that of a file in the tree. -/
theorem exists_file_of_readText {p : Path} {text : String} (h : t.files.readText p = .ok text) :
    ∃ file ∈ t, t.locate? p = some file.1 ∧ String.fromUTF8? file.2 = some text := by
  unfold Files.readText at h
  cases hRead : t.files.read p with
  | error e => simp [hRead] at h
  | ok bytes =>
    obtain ⟨names, hNames, hFile⟩ := read_eq_ok_iff.mp hRead
    obtain ⟨before, after, hSplit, -⟩ := List.lookup_eq_some_iff.mp hFile
    refine ⟨(names, bytes), by simp [hSplit], hNames, ?_⟩
    cases hText : String.fromUTF8? bytes with
    | none => simp [hRead, hText] at h
    | some text' =>
      simp only [hRead, hText, Except.ok.injEq] at h
      rw [h]

theorem SameFile.symm {p q : Path} (h : t.SameFile p q) : t.SameFile q p := by
  obtain ⟨names, hp, hq⟩ := h
  exact ⟨names, hq, hp⟩

/-- Of paths that can be read and lead to different files there are no more than files. -/
theorem length_le_count {paths : List Path} (hApart : paths.Pairwise fun p q => ¬t.SameFile p q)
    (hRead : ∀ p ∈ paths, ∃ text, t.files.readText p = .ok text) : paths.length ≤ t.count := by
  -- where they lead is different for all of them, and a file of the tree
  have hNodup : (paths.map t.locate?).Nodup := by
    refine List.pairwise_map.mpr (hApart.imp_of_mem ?_)
    intro p q hp hq hOther hSame
    obtain ⟨text, hText⟩ := hRead p hp
    obtain ⟨file, hFile, hNames, -⟩ := exists_file_of_readText hText
    exact hOther ⟨file.1, hNames, hSame ▸ hNames⟩
  have hSubset : paths.map t.locate? ⊆ (t.map (·.1)).dedup.map some := by
    intro found hFound
    obtain ⟨p, hp, rfl⟩ := List.mem_map.mp hFound
    obtain ⟨text, hText⟩ := hRead p hp
    obtain ⟨file, hFile, hNames, -⟩ := exists_file_of_readText hText
    rw [hNames]
    exact List.mem_map_of_mem (List.mem_dedup.mpr (List.mem_map_of_mem hFile))
  have hLength := (hNodup.subperm hSubset).length_le
  rw [List.length_map, List.length_map] at hLength
  exact hLength

/-- Outside of the tree nothing is found. -/
theorem locateFrom?_none (segments : List Name) : t.locateFrom? none segments = none := by
  induction segments with
  | nil => rfl
  | cons segment rest ih =>
    rw [locateFrom?]
    split
    · exact ih
    · split
      · exact ih
      · split <;> rfl

/-- A path that leads to a file is relative, and not too long. -/
theorem locateFrom?_of_locate? {p : Path} {names : List Name} (h : t.locate? p = some names) :
    p.isAbsolute = false ∧ p.text.utf8ByteSize ≤ Files.pathLimit ∧
      t.locateFrom? (some []) p.segments = some names := by
  unfold locate? at h
  simp only [Option.ite_none_left_eq_some] at h
  obtain ⟨-, hShort, -, h⟩ := h
  cases hAbsolute : p.isAbsolute with
  | true =>
    rw [hAbsolute, if_pos rfl, locateFrom?_none] at h
    cases h
  | false =>
    rw [hAbsolute] at h
    exact ⟨rfl, Nat.le_of_not_lt hShort, h⟩

/-- The last segment of a path that leads to a file is the name of the file. -/
theorem exists_name_of_locateFrom? {directory : Option (List Name)} {segments names : List Name}
    (h : t.locateFrom? directory segments = some names) :
    ∃ before name, segments = before ++ [name] ∧ Path.isSilent name = false ∧
      names.getLast? = some name := by
  -- on the segments; all but the last lead to directories
  induction segments generalizing directory with
  | nil => cases h
  | cons segment rest ih =>
    have hLater : ∀ {directory : Option (List Name)}, t.locateFrom? directory rest = some names →
        ∃ before name, segment :: rest = before ++ [name] ∧ Path.isSilent name = false ∧
          names.getLast? = some name := by
      intro directory hRest
      obtain ⟨before, name, rfl, hName⟩ := ih hRest
      exact ⟨segment :: before, name, rfl, hName⟩
    rw [locateFrom?.eq_def] at h
    dsimp only at h
    split at h
    · exact hLater h
    · next hCounts =>
      split at h
      · exact hLater h
      · split at h
        · cases h
        · cases directory with
          | none => cases h
          | some parents =>
            dsimp only at h
            split at h
            · rw [Option.ite_none_right_eq_some, Option.some.injEq, List.isEmpty_iff] at h
              obtain ⟨rfl, rfl⟩ := h
              exact ⟨[], segment, rfl, Bool.eq_false_of_not_eq_true hCounts, List.getLast?_concat⟩
            · rw [Option.ite_none_right_eq_some] at h
              exact hLater h.2

end FileTree

/-! ## Plain paths -/

namespace Path

/-- Nothing leads back, and there is no dot at the start. -/
structure ArePlain (segments : List Name) : Prop where
  onward : ['.', '.'] ∉ segments
  noDot : segments.head? ≠ some ['.']

instance (segments : List Name) : Decidable (ArePlain segments) :=
  decidable_of_iff (['.', '.'] ∉ segments ∧ segments.head? ≠ some ['.'])
    ⟨fun h => ⟨h.1, h.2⟩, fun h => ⟨h.onward, h.noDot⟩⟩

/-- The segments of the path are plain. -/
def IsPlain (p : Path) : Prop :=
  ArePlain p.segments

instance (p : Path) : Decidable p.IsPlain :=
  inferInstanceAs (Decidable (ArePlain _))

theorem ArePlain.of_prefix {first segments : List Name} (h : ArePlain segments)
    (hPrefix : first <+: segments) : ArePlain first := by
  refine ⟨fun hMem => h.onward (hPrefix.subset hMem), ?_⟩
  obtain ⟨rest, rfl⟩ := hPrefix
  cases first with
  | nil => exact nofun
  | cons segment first => exact h.noDot

theorem ArePlain.append {first second : List Name} (hFirst : ArePlain first)
    (hSecond : ArePlain second) : ArePlain (first ++ second) := by
  refine ⟨?_, ?_⟩
  · rw [List.mem_append, not_or]
    exact ⟨hFirst.onward, hSecond.onward⟩
  · cases first with
    | nil => exact hSecond.noDot
    | cons segment first => exact hFirst.noDot

theorem segments_ne_nil (p : Path) : p.segments ≠ [] := by
  rw [segments, splitAll_eq_splitOn]
  exact List.splitOnP_ne_nil _ _

/-- A path with a slash in it has the segments before the slash and those after it. -/
theorem segments_slash (before after : List Char) :
    segments ⟨String.ofList (before ++ '/' :: after)⟩ =
      segments ⟨String.ofList before⟩ ++ segments ⟨String.ofList after⟩ := by
  simp only [segments, String.toList_ofList, splitAll_eq_splitOn]
  exact List.splitOnP_append_cons before after (beq_self_eq_true '/')

theorem not_mem_of_mem_segments {p : Path} {segment : Name} (h : segment ∈ p.segments) :
    '/' ∉ segment :=
  not_mem_of_mem_splitAll h

/-- Segments without slashes are those of the path that is made of them. -/
theorem segments_ofSegments {segments : List Name} (hSome : segments ≠ [])
    (hNoSlash : ∀ segment ∈ segments, '/' ∉ segment) : (ofSegments segments).segments = segments := by
  rw [Path.segments, ofSegments, String.toList_ofList, splitAll_intercalate hSome hNoSlash]

/-- A file named in a directory has the segments of the directory before its own, but for the empty one
at the end. -/
theorem segments_join (p : Path) {relative : Path} (hRelative : relative.isAbsolute = false) :
    ∃ before, (p.join relative).segments = before ++ relative.segments ∧
      (p.segments = before ∨ p.segments = before ++ [[]]) := by
  obtain ⟨text⟩ := p
  unfold join
  rw [hRelative, if_neg Bool.false_ne_true]
  split
  · next hOpen =>
    rw [Bool.or_eq_true, String.isEmpty_iff, beq_iff_eq, List.getLast?_eq_some_iff] at hOpen
    rcases hOpen with hEmpty | ⟨before, hSlash⟩
    · obtain rfl : text = "" := hEmpty
      refine ⟨[], ?_, .inr rfl⟩
      rw [String.empty_append]
      rfl
    · obtain rfl : text = String.ofList (before ++ ['/']) := by
        rw [← hSlash, String.ofList_toList]
      have hJoined : String.ofList (before ++ ['/']) ++ relative.text =
          String.ofList (before ++ '/' :: relative.text.toList) := by
        apply String.toList_injective
        simp
      refine ⟨segments ⟨String.ofList before⟩, ?_, .inr (segments_slash before [])⟩
      rw [hJoined, segments_slash, String.ofList_toList]
  · have hJoined : text ++ "/" ++ relative.text =
        String.ofList (text.toList ++ '/' :: relative.text.toList) := by
      apply String.toList_injective
      simp
    refine ⟨segments ⟨text⟩, ?_, .inl rfl⟩
    rw [hJoined, segments_slash, String.ofList_toList, String.ofList_toList]

/-- A path that is made of the first segments of a plain path is plain. -/
theorem IsPlain.of_segments {p : Path} (h : p.IsPlain) {first : List Name}
    (hPrefix : first <+: p.segments) : (ofSegments first).IsPlain := by
  cases first with
  | nil => decide
  | cons segment first =>
    have hNoSlash : ∀ part ∈ segment :: first, '/' ∉ part := fun part hPart =>
      not_mem_of_mem_segments (hPrefix.subset hPart)
    rw [IsPlain, segments_ofSegments (List.cons_ne_nil _ _) hNoSlash]
    exact ArePlain.of_prefix h hPrefix

theorem dropSilent_suffix (segments : List Name) : dropSilent segments <:+ segments := by
  induction segments using dropSilent.induct with
  | case1 => exact List.suffix_rfl
  | case2 => exact List.suffix_rfl
  | case3 last rest hRest hSilent ih =>
    rw [dropSilent, if_pos hSilent]
    · exact ih.trans (List.suffix_cons last rest)
    · exact hRest
  | case4 last rest hRest hSounds =>
    rw [dropSilent, if_neg hSounds]
    exact hRest

/-- The directory of a plain path is plain. -/
theorem IsPlain.parent {p directory : Path} (h : p.IsPlain) (hParent : p.parent? = some directory) :
    directory.IsPlain := by
  -- the directory has the segments of the path up to some place
  have hFirst : ∀ {last rest}, dropSilent p.segments.reverse = last :: rest →
      (ofSegments (dropSilent rest).reverse).IsPlain := by
    intro last rest hReversed
    have hSuffix : dropSilent rest <:+ p.segments.reverse :=
      calc dropSilent rest <:+ rest := dropSilent_suffix rest
        _ <:+ last :: rest := List.suffix_cons last rest
        _ = dropSilent p.segments.reverse := hReversed.symm
        _ <:+ p.segments.reverse := dropSilent_suffix _
    refine h.of_segments ?_
    rw [← List.reverse_reverse p.segments]
    exact hSuffix.reverse
  have hRoot : IsPlain ⟨"/"⟩ := by decide
  have hEmpty : IsPlain ⟨""⟩ := by decide
  unfold parent? at hParent
  dsimp only at hParent
  split at hParent
  · split at hParent
    · cases hParent
    · cases hParent
    · next hReversed =>
      have hDirectory := hFirst hReversed
      split at hParent
      · obtain rfl := Option.some.inj hParent
        exact hRoot
      · obtain rfl := Option.some.inj hParent
        exact hDirectory
  · split at hParent
    · cases hParent
    · split at hParent
      · cases hParent
      · obtain rfl := Option.some.inj hParent
        exact hEmpty
    · next hReversed =>
      obtain rfl := Option.some.inj hParent
      exact hFirst hReversed

theorem IsPlain.join {p relative : Path} (h : p.IsPlain) (hRelative : relative.IsPlain) :
    (p.join relative).IsPlain := by
  cases hAbsolute : relative.isAbsolute with
  | true =>
    rw [Path.join, if_pos hAbsolute]
    exact hRelative
  | false =>
    obtain ⟨before, hSegments, hBefore⟩ := segments_join p hAbsolute
    have hFirst : ArePlain before := by
      rcases hBefore with hSame | hSlash
      · exact hSame ▸ h
      · exact ArePlain.of_prefix h ⟨_, hSlash.symm⟩
    rw [IsPlain, hSegments]
    exact hFirst.append hRelative

/-- What a plain path names beside a plain path is plain. -/
theorem IsPlain.sibling {p relative : Path} (h : p.IsPlain) (hRelative : relative.IsPlain) :
    (p.sibling relative).IsPlain := by
  unfold Path.sibling
  split
  · next directory hParent => exact (h.parent hParent).join hRelative
  · exact hRelative

end Path

namespace FileTree

variable {t : FileTree}

/-- Segments that do not lead back lead to what they name. -/
theorem eq_of_locateFrom? {directory names : List Name} {segments : List Name}
    (hBack : ['.', '.'] ∉ segments) (h : t.locateFrom? (some directory) segments = some names) :
    names = directory ++ segments.filter fun s => !Path.isSilent s := by
  induction segments generalizing directory with
  | nil => cases h
  | cons segment rest ih =>
    rw [List.mem_cons, not_or] at hBack
    rw [locateFrom?] at h
    split at h
    · next hSilent =>
      rw [List.filter_cons_of_neg (by simp [hSilent])]
      exact ih hBack.2 h
    · next hSilent =>
      rw [if_neg (Ne.symm hBack.1)] at h
      rw [List.filter_cons_of_pos (by simp [hSilent])]
      split at h
      · cases h
      · dsimp only at h
        split at h
        · -- the file is found at the last segment
          rw [Option.ite_none_right_eq_some, Option.some.injEq, List.isEmpty_iff] at h
          obtain ⟨rfl, rfl⟩ := h
          rfl
        · rw [Option.ite_none_right_eq_some] at h
          rw [ih hBack.2 h.2, List.append_assoc]
          rfl

/-- A plain path leads to the file of its components. -/
theorem components_of_isPlain {p : Path} {names : List Name} (hPlain : p.IsPlain)
    (h : t.locate? p = some names) : p.components = (false, names) := by
  obtain ⟨hRelative, -, hFrom⟩ := locateFrom?_of_locate? h
  have hNames := eq_of_locateFrom? hPlain.onward hFrom
  rw [List.nil_append] at hNames
  rw [Path.components, hRelative, hNames]
  -- only a dot at the start would count although it is silent
  have hFirst := hPlain.noDot
  cases hSegments : p.segments with
  | nil => rfl
  | cons first rest =>
    rw [hSegments] at hFirst
    have hDot : first ≠ ['.'] := fun hSame => hFirst (by rw [hSame]; rfl)
    cases first with
    | nil => rfl
    | cons c cs =>
      have hSilent : Path.isSilent (c :: cs) = false := by
        rw [Path.isSilent, List.isEmpty_cons, Bool.false_or, beq_eq_false_iff_ne]
        exact hDot
      simp [Path.countingSegments, hSilent]

/-- Plain paths to one file are the same path. -/
theorem same_of_isPlain {p q : Path} (hp : p.IsPlain) (hq : q.IsPlain) (h : t.SameFile p q) :
    p.same q = true := by
  obtain ⟨names, hNames, hNames'⟩ := h
  have hComponents : p.components = q.components :=
    (components_of_isPlain hp hNames).trans (components_of_isPlain hq hNames').symm
  rw [Path.same, beq_iff_eq, Path.normal, Path.normal, hComponents]

end FileTree

end RefRules
