import RefRules.Proofs.PathParts

/-!
# RefRules — the names in a field path

A name in a path is one that a type can declare: it is not empty, there is no dot and no bracket in
it, and a star only at the end of a path of this name alone. White space around a name does not belong
to it. The reader takes it away around a part, but not between a name and the `[]` behind it, so there
the name that is read ends in white space, and no type declares it.

Main results:

* `FieldPath.isMeantBy_tidied` — without the white space at the ends of names, a path that was read is
  what its text means;
* `FieldPath.isMeantBy_iff` — it is so as it was read exactly when no part of the text has a gap.
-/

namespace RefRules

open Text

theorem toList_trimmed (s : String) : (trimmed s).toList = trim s.toList :=
  String.toList_ofList

theorem IsTrimmed.trimmed_eq {s : String} (h : IsTrimmed s.toList) : trimmed s = s := by
  rw [← String.toList_inj, toList_trimmed, h.trim_eq]

/-! ## White space in front of brackets -/

/-- White space stands right in front of a bracket. -/
def HasGap (part : List Char) : Prop :=
  ∃ c, isBlank c = true ∧ [c, '['] <:+: part

namespace FieldPath

theorem isBlank_of_mem_brackets {n : Nat} {c : Char} (h : c ∈ brackets n) : isBlank c = false := by
  rw [brackets, List.mem_flatten] at h
  obtain ⟨part, hPart, hMem⟩ := h
  rw [List.eq_of_mem_replicate hPart] at hMem
  rcases List.mem_pair.mp hMem with rfl | rfl <;> decide

theorem pos_of_brackets_eq_cons {n : Nat} {c : Char} {cs : List Char} (h : brackets n = c :: cs) :
    0 < n := by
  rw [Nat.pos_iff_ne_zero]
  rintro rfl
  cases h

/-- There is a gap behind a name exactly when the name ends in white space and has elements behind
it. -/
theorem hasGap_append_brackets_iff {name : List Char} (hOpen : '[' ∉ name) (n : Nat) :
    HasGap (name ++ brackets n) ↔ 0 < n ∧ ∃ c ∈ name.getLast?, isBlank c = true := by
  constructor
  · rintro ⟨c, hBlank, front, back, hText⟩
    have hLast : (front ++ [c]).getLast? = some c := List.getLast?_concat
    rw [show front ++ [c, '['] ++ back = (front ++ [c]) ++ ('[' :: back) by simp,
      List.append_eq_append_iff] at hText
    rcases hText with ⟨more, rfl, hBack⟩ | ⟨more, hFront, hBrackets⟩
    · cases more with
      | nil =>
        rw [List.append_nil]
        exact ⟨pos_of_brackets_eq_cons hBack.symm, c, hLast, hBlank⟩
      | cons first more =>
        -- the bracket would be in the name
        obtain ⟨rfl, -⟩ := List.cons.inj hBack
        exact absurd (by simp) hOpen
    · cases more with
      | nil =>
        rw [List.append_nil] at hFront
        exact ⟨pos_of_brackets_eq_cons hBrackets, c, hFront ▸ hLast, hBlank⟩
      | cons first more =>
        -- the white space would be among the brackets
        rw [hFront, List.getLast?_append_of_ne_nil _ (List.cons_ne_nil _ _)] at hLast
        have hMem : c ∈ brackets n := hBrackets ▸ List.mem_append_left _ (List.mem_of_getLast? hLast)
        rw [isBlank_of_mem_brackets hMem] at hBlank
        cases hBlank
  · rintro ⟨hCount, c, hLast, hBlank⟩
    obtain ⟨front, rfl⟩ := List.getLast?_eq_some_iff.mp hLast
    obtain ⟨m, rfl⟩ := Nat.exists_eq_succ_of_ne_zero (Nat.ne_of_gt hCount)
    refine ⟨c, hBlank, front, ']' :: brackets m, ?_⟩
    rw [show brackets (m + 1) = '[' :: ']' :: brackets m from rfl, List.append_assoc,
      List.append_assoc]
    rfl

/-! ## What a text means -/

/-- A name that a type can declare as it is written. -/
structure IsDeclarable (name : List Char) : Prop extends IsName name where
  last : ∀ c ∈ name.getLast?, isBlank c = false

/-- A star in the name is its only one and its last character, and the name is the whole path. -/
def EndsInStar (hops : List Hop) (name : String) : Prop :=
  hops = [.field name] ∧ ∃ start, name.toList = start ++ ['*'] ∧ '*' ∉ start

/-- The hops that a part is meant to stand for: a name with white space behind it, and then `[]`. The
white space is no part of the name. -/
inductive Spells : List Char → List Hop → Prop
  | intro {name gap : List Char} {n : Nat} (hName : IsTrimmed name)
      (hGap : ∀ c ∈ gap, isBlank c = true) (hSome : name ≠ [] ∨ 0 < n) (hOpen : '[' ∉ name)
      (hClose : ']' ∉ name) :
      Spells (name ++ gap ++ brackets n) (fieldHops name ++ List.replicate n .elements)

/-- What a text is meant to say: its parts spell the hops, and each name is one that a type can
declare, or the beginning of such names. -/
structure IsMeantBy (text : String) (p : FieldPath) : Prop where
  spelled : HopsOf Spells (parts text) p.hops
  declarable : ∀ name, .field name ∈ p.hops → IsDeclarable name.toList
  star : ∀ name, .field name ∈ p.hops → '*' ∈ name.toList → EndsInStar p.hops name

end FieldPath

/-- The hop with a name that has no white space around it. -/
def Hop.tidied : Hop → Hop
  | .field name => .field (trimmed name)
  | .elements => .elements

namespace FieldPath

/-- The path with names that have no white space around them. -/
def tidied (p : FieldPath) : FieldPath :=
  ⟨p.hops.map Hop.tidied⟩

section

variable {name : List Char} {n : Nat}

/-- Behind what begins without white space there is only the white space at its end to take away. -/
theorem exists_eq_trim_append (hHead : ∀ c ∈ name.head?, isBlank c = false) :
    ∃ gap, name = trim name ++ gap ∧ ∀ c ∈ gap, isBlank c = true := by
  refine ⟨(name.reverse.takeWhile isBlank).reverse, ?_, ?_⟩
  · rw [trim, dropWhile_isBlank_eq_self hHead, trimEnd, ← List.reverse_append,
      List.takeWhile_append_dropWhile, List.reverse_reverse]
  · intro c hc
    exact List.mem_takeWhile_imp (List.mem_reverse.mp hc)

theorem trim_ne_nil (hHead : ∀ c ∈ name.head?, isBlank c = false) (h : name ≠ []) :
    trim name ≠ [] := by
  obtain ⟨c, cs, rfl⟩ := List.exists_cons_of_ne_nil h
  intro hNil
  have hBlank := trim_eq_nil_iff.mp hNil c List.mem_cons_self
  rw [hHead c rfl] at hBlank
  cases hBlank

theorem fieldHops_of_ne_nil (h : name ≠ []) : fieldHops name = [.field (String.ofList name)] :=
  if_neg (by rwa [List.isEmpty_iff])

theorem fieldHops_inj {other : List Char} : fieldHops name = fieldHops other ↔ name = other := by
  constructor
  · intro h
    rw [← names_fieldHops name, h, names_fieldHops]
  · rintro rfl
    rfl

theorem map_tidied_hops (hHead : ∀ c ∈ name.head?, isBlank c = false) :
    (fieldHops name ++ List.replicate n Hop.elements).map Hop.tidied =
      fieldHops (trim name) ++ List.replicate n .elements := by
  have hField : (fieldHops name).map Hop.tidied = fieldHops (trim name) := by
    by_cases hName : name = []
    · subst hName
      rfl
    · rw [fieldHops_of_ne_nil hName, fieldHops_of_ne_nil (trim_ne_nil hHead hName)]
      show [Hop.field (trimmed (String.ofList name))] = _
      rw [trimmed, String.toList_ofList]
  rw [List.map_append, hField, List.map_replicate]
  rfl

theorem head_of_isTrimmed_append (h : IsTrimmed (name ++ brackets n)) :
    ∀ c ∈ name.head?, isBlank c = false := by
  intro c hc
  refine h.head c ?_
  rw [Option.mem_def] at hc
  rw [List.head?_append, hc]
  rfl

end

/-- The hops of a part are meant, but for the white space at the end of its name. -/
theorem IsReadAs.spells {part : List Char} {hops : List Hop} (h : IsReadAs part hops)
    (hTrimmed : IsTrimmed part) : Spells part (hops.map Hop.tidied) := by
  obtain ⟨hSome, hOpen, hClose⟩ := h
  next name n =>
    have hHead := head_of_isTrimmed_append hTrimmed
    obtain ⟨gap, hName, hGap⟩ := exists_eq_trim_append hHead
    have hSub : trim name ⊆ name := (trim_sublist name).subset
    have hSpells : Spells (trim name ++ gap ++ brackets n)
        (fieldHops (trim name) ++ List.replicate n .elements) :=
      .intro (isTrimmed_trim name) hGap (hSome.imp_left (trim_ne_nil hHead))
        (fun hMem => hOpen (hSub hMem)) fun hMem => hClose (hSub hMem)
    rwa [← hName, ← map_tidied_hops hHead] at hSpells

/-- The hops of a part are as they are meant exactly when there is no gap in it. -/
theorem IsReadAs.map_tidied_eq_iff {part : List Char} {hops : List Hop} (h : IsReadAs part hops)
    (hTrimmed : IsTrimmed part) : hops.map Hop.tidied = hops ↔ ¬HasGap part := by
  obtain ⟨-, hOpen, -⟩ := h
  next name n =>
    have hHead := head_of_isTrimmed_append hTrimmed
    rw [map_tidied_hops hHead, List.append_left_inj, fieldHops_inj, trim_eq_self_iff,
      hasGap_append_brackets_iff hOpen]
    constructor
    · rintro hName ⟨-, c, hLast, hBlank⟩
      rw [hName.last c hLast] at hBlank
      cases hBlank
    · intro hNone
      refine ⟨hHead, fun c hLast => ?_⟩
      cases n with
      | zero =>
        -- the name is the whole part
        rw [append_brackets_zero] at hTrimmed
        exact hTrimmed.last c hLast
      | succ n =>
        by_contra hBlank
        exact hNone ⟨Nat.succ_pos n, c, hLast, by simpa using hBlank⟩

/-! ## Paths -/

theorem isTrimmed_of_mem_parts {text : String} {part : List Char} (h : part ∈ parts text) :
    IsTrimmed part := by
  obtain ⟨piece, -, rfl⟩ := List.mem_map.mp h
  exact isTrimmed_trim piece

namespace HopsOf

variable {parts : List (List Char)} {hops : List Hop}

theorem spells (h : HopsOf IsReadAs parts hops) (hTrimmed : ∀ part ∈ parts, IsTrimmed part) :
    HopsOf Spells parts (hops.map Hop.tidied) := by
  induction h with
  | nil => exact .nil
  | cons hPart _ ih =>
    obtain ⟨hFirst, hLater⟩ := List.forall_mem_cons.mp hTrimmed
    rw [List.map_append]
    exact .cons (hPart.spells hFirst) (ih hLater)

theorem map_tidied_eq_iff (h : HopsOf IsReadAs parts hops)
    (hTrimmed : ∀ part ∈ parts, IsTrimmed part) :
    hops.map Hop.tidied = hops ↔ ∀ part ∈ parts, ¬HasGap part := by
  induction h with
  | nil => simp
  | @cons part parts hops rest hPart _ ih =>
    obtain ⟨hFirst, hLater⟩ := List.forall_mem_cons.mp hTrimmed
    rw [List.forall_mem_cons, ← hPart.map_tidied_eq_iff hFirst, ← ih hLater, List.map_append]
    -- the hops of the part and those behind it keep their numbers
    constructor
    · intro hSame
      exact List.append_inj hSame (List.length_map _)
    · rintro ⟨hHops, hRest⟩
      rw [hHops, hRest]

end HopsOf

theorem AreReadable.isName {name : String} {hops : List Hop} (h : AreReadable hops)
    (hMem : .field name ∈ hops) : IsName name.toList := by
  induction h with
  | nil => cases hMem
  | elements _ ih => exact ih (List.mem_of_ne_of_mem Hop.noConfusion hMem)
  | field hName _ _ ih =>
    rcases List.mem_cons.mp hMem with hSame | hLater
    · cases hSame
      exact hName
    · exact ih hLater

/-- Where a star may stand. -/
theorem endsInStar_of_starsFit {name : String} {hops : List Hop} (h : starsFit hops = true)
    (hMem : .field name ∈ hops) (hStar : '*' ∈ name.toList) : EndsInStar hops name := by
  unfold starsFit at h
  split at h
  · next single =>
    rw [List.mem_singleton, Hop.field.injEq] at hMem
    subst hMem
    have hSome : name.toList ≠ [] := List.ne_nil_of_mem hStar
    have hStart : '*' ∉ name.toList.dropLast := by simpa using h
    -- the star is the only character that is left
    have hSplit := List.dropLast_append_getLast hSome
    rw [← hSplit, List.mem_append, List.mem_singleton] at hStar
    rw [← hStar.resolve_left hStart] at hSplit
    exact ⟨rfl, name.toList.dropLast, hSplit.symm, hStart⟩
  · have hNone := List.all_eq_true.mp h _ hMem
    simp [Hop.hasStar, hStar] at hNone

theorem exists_of_mem_tidied {p : FieldPath} {name : String} (h : .field name ∈ p.tidied.hops) :
    ∃ read, .field read ∈ p.hops ∧ trimmed read = name := by
  obtain ⟨hop, hMem, hHop⟩ := List.mem_map.mp h
  cases hop with
  | field read => exact ⟨read, hMem, Hop.field.inj hHop⟩
  | elements => cases hHop

theorem IsName.isDeclarable_trim {name : List Char} (h : IsName name) : IsDeclarable (trim name) := by
  have hSub : trim name ⊆ name := (trim_sublist name).subset
  have hTrimmed := isTrimmed_trim name
  exact ⟨⟨trim_ne_nil h.head h.ne_nil, hTrimmed.head, fun hMem => h.noDot (hSub hMem),
    fun hMem => h.noOpen (hSub hMem), fun hMem => h.noClose (hSub hMem)⟩, hTrimmed.last⟩

section

variable {text : String} {p : FieldPath}

/-- What is said of the names that are read holds of them up to the white space at their end. -/
theorem isMeantBy_tidied (h : parse text = .ok p) : IsMeantBy text p.tidied := by
  obtain ⟨hHops, hStars⟩ := parse_eq_ok_iff.mp h
  have hReadable := areReadable_of_parse h
  refine ⟨hHops.spells fun part hMem => isTrimmed_of_mem_parts hMem, ?_, ?_⟩
  · intro name hMem
    obtain ⟨read, hRead, rfl⟩ := exists_of_mem_tidied hMem
    rw [toList_trimmed]
    exact (hReadable.isName hRead).isDeclarable_trim
  · intro name hMem hStar
    obtain ⟨read, hRead, rfl⟩ := exists_of_mem_tidied hMem
    rw [toList_trimmed] at hStar
    obtain ⟨hOne, start, hText, hStart⟩ :=
      endsInStar_of_starsFit hStars hRead ((trim_sublist _).subset hStar)
    -- a name that ends in a star has no white space at its end
    have hTrimmed : IsTrimmed read.toList := by
      refine ⟨(hReadable.isName hRead).head, fun c hLast => ?_⟩
      rw [hText, List.getLast?_concat] at hLast
      cases hLast
      decide
    have hHops : p.tidied.hops = [.field (trimmed read)] := by
      rw [tidied, hOne]
      rfl
    rw [hHops, hTrimmed.trimmed_eq]
    exact ⟨rfl, start, hText, hStart⟩

/-- Names that a type can declare have no white space to take away. -/
theorem tidied_eq_of_isMeantBy (h : IsMeantBy text p) : p.hops.map Hop.tidied = p.hops := by
  refine (List.map_congr_left fun hop hMem => ?_).trans (List.map_id _)
  cases hop with
  | elements => rfl
  | field name =>
    have hName := h.declarable name hMem
    have hTrimmed : IsTrimmed name.toList := ⟨hName.head, hName.last⟩
    show Hop.field (trimmed name) = Hop.field name
    rw [hTrimmed.trimmed_eq]

/-- **Names of paths.** In a path that was read no name is empty, begins with white space or has a dot
or a bracket in it, and a star is the end of a path of one name. Without the white space at the ends
of its names, the path is what its text means. It is so as it was read exactly when no part of the
text has white space in front of a bracket. -/
theorem isMeantBy_iff (h : parse text = .ok p) :
    (∀ name, .field name ∈ p.hops →
      IsName name.toList ∧ ('*' ∈ name.toList → EndsInStar p.hops name)) ∧
    IsMeantBy text p.tidied ∧
    (IsMeantBy text p ↔ ∀ part ∈ parts text, ¬HasGap part) := by
  obtain ⟨hHops, hStars⟩ := parse_eq_ok_iff.mp h
  have hTidied := isMeantBy_tidied h
  have hSame := hHops.map_tidied_eq_iff fun part hMem => isTrimmed_of_mem_parts hMem
  refine ⟨fun name hMem => ?_, hTidied, ?_⟩
  · exact ⟨(areReadable_of_parse h).isName hMem, endsInStar_of_starsFit hStars hMem⟩
  · rw [← hSame]
    constructor
    · exact tidied_eq_of_isMeantBy
    · intro hNames
      rwa [tidied, hNames] at hTidied

end

/-- The cells of rows, through a name of two words. -/
def rowPath : FieldPath :=
  ⟨[.field "first row", .field "cells", .elements, .elements]⟩

/-- White space around parts and inside of names is no gap. -/
theorem isMeantBy_rowPath :
    parse " first row . cells[] .[] " = .ok rowPath ∧
      IsMeantBy " first row . cells[] .[] " rowPath := by
  have hRead : parse " first row . cells[] .[] " = .ok rowPath := by decide +kernel
  have hParts : parts " first row . cells[] .[] " =
      ["first row".toList, "cells[]".toList, "[]".toList] := by
    decide +kernel
  have hNoGap : ∀ part ∈ parts " first row . cells[] .[] ", ¬HasGap part := by
    rw [hParts, List.forall_mem_cons, List.forall_mem_cons, List.forall_mem_singleton]
    refine ⟨?_, ?_, ?_⟩ <;> rintro ⟨c, hBlank, hGap⟩
    · simp [List.infix_cons_iff] at hGap
    · -- a letter stands in front of the bracket
      obtain rfl : c = 's' := by simpa [List.infix_cons_iff] using hGap
      revert hBlank
      decide
    · simp [List.infix_cons_iff] at hGap
  exact ⟨hRead, (isMeantBy_iff hRead).2.2.mpr hNoGap⟩

/-- The elements of a field whose name ends in a blank. -/
def gapPath : FieldPath :=
  ⟨[.field "items ", .elements]⟩

/-- The blank in front of the brackets is read as a part of the name. -/
theorem not_isMeantBy_gapPath :
    parse "items []" = .ok gapPath ∧ ¬IsMeantBy "items []" gapPath := by
  refine ⟨by decide +kernel, fun h => ?_⟩
  have hEnd : "items ".toList.getLast? = some ' ' := by decide
  have hBlank := (h.declarable "items " List.mem_cons_self).last ' ' hEnd
  revert hBlank
  decide

end FieldPath

end RefRules
