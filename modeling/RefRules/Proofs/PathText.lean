import RefRules.Proofs.Outcome
import RefRules.Rule.FieldPath

/-!
# RefRules — the texts of field paths

A path is read from names between dots, with blanks around them and `[]` behind them. Its canonical
text has the same names in the same order. It is read back as the path, though a name may have blanks
at its end, where `[]` stands behind it.

Main results:

* `FieldPath.parsePart_eq_ok_iff` — what stands between two dots, and the hops it gives;
* `FieldPath.AreReadable` — the hops that a text can give; `FieldPath.areReadable_of_parse`;
* `FieldPath.parse_text` — a path that was read is read back from its canonical text;
* `FieldPath.count_text_le` — but for dots and brackets the canonical text has no character more often
  than the text that was read.
-/

namespace RefRules

open Text

/-! ## Blanks at the ends -/

/-- Blanks stand at neither end. -/
structure IsTrimmed (cs : List Char) : Prop where
  head : ∀ c ∈ cs.head?, isBlank c = false
  last : ∀ c ∈ cs.getLast?, isBlank c = false

theorem head_dropWhile_isBlank (cs : List Char) :
    ∀ c ∈ (cs.dropWhile isBlank).head?, isBlank c = false := by
  intro c hc
  have hHead := List.head?_dropWhile_not isBlank cs
  rw [Option.mem_def.mp hc] at hHead
  simpa using hHead

theorem dropWhile_isBlank_eq_self {cs : List Char} (h : ∀ c ∈ cs.head?, isBlank c = false) :
    cs.dropWhile isBlank = cs := by
  cases cs with
  | nil => rfl
  | cons c cs =>
    have hHead : isBlank c = false := h c rfl
    rw [List.dropWhile_cons_of_neg (by simp [hHead])]

theorem isPrefix_trimEnd (cs : List Char) : trimEnd cs <+: cs := by
  rw [trimEnd, ← List.reverse_suffix, List.reverse_reverse]
  exact List.dropWhile_suffix isBlank

theorem trim_sublist (cs : List Char) : (trim cs).Sublist cs :=
  (isPrefix_trimEnd _).sublist.trans (List.dropWhile_suffix isBlank).sublist

theorem isTrimmed_trim (cs : List Char) : IsTrimmed (trim cs) where
  head c hc := by
    -- what stands in front is not touched at the end
    obtain ⟨rest, hRest⟩ := isPrefix_trimEnd (cs.dropWhile isBlank)
    refine head_dropWhile_isBlank cs c ?_
    rw [← hRest, List.head?_append]
    rw [trim, Option.mem_def] at hc
    rw [hc]
    rfl
  last c hc := by
    rw [trim, trimEnd, List.getLast?_reverse] at hc
    exact head_dropWhile_isBlank _ c hc

theorem IsTrimmed.trim_eq {cs : List Char} (h : IsTrimmed cs) : trim cs = cs := by
  rw [trim, dropWhile_isBlank_eq_self h.head, trimEnd, dropWhile_isBlank_eq_self,
    List.reverse_reverse]
  rw [List.head?_reverse]
  exact h.last

theorem trim_eq_self_iff {cs : List Char} : trim cs = cs ↔ IsTrimmed cs := by
  constructor
  · intro h
    exact h ▸ isTrimmed_trim cs
  · exact IsTrimmed.trim_eq

theorem trim_trim (cs : List Char) : trim (trim cs) = trim cs :=
  (isTrimmed_trim cs).trim_eq

theorem trim_eq_nil_iff {cs : List Char} : trim cs = [] ↔ ∀ c ∈ cs, isBlank c = true := by
  rw [trim, trimEnd, List.reverse_eq_nil_iff, List.dropWhile_eq_nil_iff]
  simp only [List.mem_reverse]
  constructor
  · intro h
    cases hDrop : cs.dropWhile isBlank with
    | nil => exact List.dropWhile_eq_nil_iff.mp hDrop
    | cons c rest =>
      have hHead := head_dropWhile_isBlank cs c (by simp [hDrop])
      rw [h c (by simp [hDrop])] at hHead
      cases hHead
  · intro h c hc
    exact h c ((List.dropWhile_suffix isBlank).subset hc)

/-! ## Splits and endings -/

theorem stripEnd?_append (ending cs : List Char) : stripEnd? ending (cs ++ ending) = some cs := by
  rw [stripEnd?, if_pos (by simp)]
  simp

theorem eq_of_dropWhile_ne {separator c : Char} {cs rest : List Char}
    (h : cs.dropWhile (· != separator) = c :: rest) : c = separator := by
  have hHead := List.head?_dropWhile_not (· != separator) cs
  rw [h] at hHead
  simpa using hHead

theorem splitOnce?_eq (separator : Char) (cs : List Char) :
    splitOnce? separator cs =
      match cs.dropWhile (· != separator) with
      | [] => none
      | _ :: rest => some (cs.takeWhile (· != separator), rest) := by
  rw [splitOnce?, List.span_eq_takeWhile_dropWhile]
  cases cs.dropWhile (· != separator) <;> rfl

theorem splitOnce?_append {separator : Char} {before : List Char} (h : separator ∉ before)
    (after : List Char) : splitOnce? separator (before ++ separator :: after) = some (before, after) := by
  have hBefore : ∀ c ∈ before, (c != separator) = true := by
    rintro c hc
    simpa using fun hSame : c = separator => h (hSame ▸ hc)
  rw [splitOnce?_eq, List.dropWhile_append_of_pos hBefore, List.takeWhile_append_of_pos hBefore]
  simp

theorem eq_append_of_splitOnce? {separator : Char} {cs before after : List Char}
    (h : splitOnce? separator cs = some (before, after)) :
    cs = before ++ separator :: after ∧ separator ∉ before := by
  rw [splitOnce?_eq] at h
  split at h
  · cases h
  · next c rest hDrop =>
    cases h
    obtain rfl := eq_of_dropWhile_ne hDrop
    refine ⟨?_, fun hMem => ?_⟩
    · rw [← hDrop, List.takeWhile_append_dropWhile]
    · simpa using List.mem_takeWhile_imp hMem

theorem splitOnce?_eq_none_iff {separator : Char} {cs : List Char} :
    splitOnce? separator cs = none ↔ separator ∉ cs := by
  constructor
  · intro h hMem
    cases hDrop : cs.dropWhile (· != separator) with
    | nil => simpa using List.dropWhile_eq_nil_iff.mp hDrop separator hMem
    | cons c rest => simp [splitOnce?_eq, hDrop] at h
  · intro h
    rw [splitOnce?_eq, List.dropWhile_eq_nil_iff.mpr]
    intro c hc
    simpa using fun hSame : c = separator => h (hSame ▸ hc)

/-! ## Parts between dots -/

theorem splitAll_eq_splitOn (separator : Char) (cs : List Char) :
    splitAll separator cs = cs.splitOn separator := by
  induction cs with
  | nil => rfl
  | cons c cs ih =>
    rw [List.splitOn, List.splitOnP_cons_eq_if_modifyHead, ← List.splitOn, splitAll, ih]
    split
    · next hNone => exact absurd hNone (List.splitOnP_ne_nil _ cs)
    · next part parts hParts =>
      rw [hParts]
      rfl

theorem not_mem_of_mem_splitAll {separator : Char} {cs part : List Char}
    (h : part ∈ splitAll separator cs) : separator ∉ part := by
  induction cs generalizing part with
  | nil =>
    rw [splitAll, List.mem_singleton] at h
    simp [h]
  | cons c cs ih =>
    rw [splitAll] at h
    split at h
    · next hNone =>
      rw [splitAll_eq_splitOn] at hNone
      exact absurd hNone (List.splitOnP_ne_nil _ cs)
    · next first parts hParts =>
      rw [hParts] at ih
      split at h
      · -- a separator begins an empty part
        rcases List.mem_cons.mp h with rfl | hLater
        · exact List.not_mem_nil
        · exact ih hLater
      · next hOther =>
        rcases List.mem_cons.mp h with rfl | hLater
        · have hNe : separator ≠ c := fun hSame => hOther (beq_iff_eq.mpr hSame.symm)
          exact List.not_mem_cons_of_ne_of_not_mem hNe (ih List.mem_cons_self)
        · exact ih (List.mem_cons_of_mem first hLater)

/-- Parts without separators are found again between them. -/
theorem splitAll_intercalate {separator : Char} {parts : List (List Char)} (hSome : parts ≠ [])
    (hParts : ∀ part ∈ parts, separator ∉ part) :
    splitAll separator ([separator].intercalate parts) = parts := by
  rw [splitAll_eq_splitOn, List.splitOn_intercalate separator hParts hSome]

theorem intercalate_splitAll (separator : Char) (cs : List Char) :
    [separator].intercalate (splitAll separator cs) = cs := by
  rw [splitAll_eq_splitOn, List.intercalate_splitOn]

theorem flatten_sublist_intercalate (separator : List Char) (parts : List (List Char)) :
    parts.flatten.Sublist (separator.intercalate parts) := by
  induction parts with
  | nil => exact List.nil_sublist _
  | cons part parts ih =>
    cases parts with
    | nil => simp [List.intercalate]
    | cons next parts =>
      rw [List.flatten_cons, List.intercalate_cons_cons, List.append_assoc]
      exact (List.Sublist.refl part).append (ih.trans (List.sublist_append_right separator _))

namespace FieldPath

/-! ## Elements -/

/-- The text of steps over elements, one behind the other. -/
def brackets (n : Nat) : List Char :=
  (List.replicate n elementsText.toList).flatten

theorem append_brackets_zero (name : List Char) : name ++ brackets 0 = name :=
  List.append_nil name

theorem brackets_succ (n : Nat) : brackets (n + 1) = brackets n ++ ['[', ']'] := by
  rw [brackets, List.replicate_succ', List.flatten_append]
  rfl

theorem head?_brackets {n : Nat} (h : 0 < n) : (brackets n).head? = some '[' := by
  obtain ⟨m, rfl⟩ := Nat.exists_eq_succ_of_ne_zero (Nat.ne_of_gt h)
  rfl

theorem append_brackets_ne_nil {name : List Char} {n : Nat} (h : name ≠ [] ∨ 0 < n) :
    name ++ brackets n ≠ [] := by
  rcases h with hName | hCount
  · exact List.append_ne_nil_of_left_ne_nil hName _
  · refine List.append_ne_nil_of_right_ne_nil _ fun hNil => ?_
    have hHead := head?_brackets hCount
    rw [hNil] at hHead
    cases hHead

theorem countElements_reverse {name : List Char} (h : ']' ∉ name) (n : Nat) :
    countElements (name ++ brackets n).reverse = (name.reverse, n) := by
  induction n with
  | zero =>
    rw [append_brackets_zero]
    cases hReverse : name.reverse with
    | nil => rfl
    | cons c rest =>
      -- the name does not end in a bracket
      rw [countElements]
      intro _ hBracket
      refine h (List.mem_reverse.mp ?_)
      rw [hReverse, hBracket]
      exact List.mem_cons_self
  | succ n ih =>
    rw [brackets_succ, ← List.append_assoc, List.reverse_append]
    show countElements (']' :: '[' :: (name ++ brackets n).reverse) = _
    rw [countElements, ih]

theorem reverse_eq_of_countElements {cs rest : List Char} {n : Nat}
    (h : countElements cs = (rest, n)) : cs.reverse = rest.reverse ++ brackets n := by
  fun_induction countElements cs generalizing rest n with
  | case1 cs name m hRest ih =>
    cases h
    rw [List.reverse_cons, List.reverse_cons, ih hRest, brackets_succ, List.append_assoc,
      List.append_assoc]
    rfl
  | case2 cs =>
    cases h
    exact (List.append_nil _).symm

theorem splitElements_append {name : List Char} (h : ']' ∉ name) (n : Nat) :
    splitElements (name ++ brackets n) = (name, n) := by
  rw [splitElements, countElements_reverse h]
  simp only [List.reverse_reverse]

theorem eq_of_splitElements {cs name : List Char} {n : Nat} (h : splitElements cs = (name, n)) :
    cs = name ++ brackets n := by
  obtain ⟨hName, hCount⟩ := Prod.mk.inj h
  have hReverse := reverse_eq_of_countElements (Prod.ext rfl hCount : countElements cs.reverse = (_, n))
  rwa [List.reverse_reverse, hName] at hReverse

/-! ## Parts -/

/-- The hop of a name, unless the name is empty. -/
def fieldHops (name : List Char) : List Hop :=
  if name.isEmpty then [] else [.field (String.ofList name)]

theorem fieldHops_toList {name : String} (h : name.toList ≠ []) :
    fieldHops name.toList = [.field name] := by
  rw [fieldHops, if_neg, String.ofList_toList]
  simpa using h

/-- A text between dots has hops exactly when it is a name with `[]` behind it, or one of these. -/
theorem parsePart_eq_ok_iff {whole : String} {part : List Char} {hops : List Hop} :
    parsePart whole part = .ok hops ↔ ∃ name n, trim part = name ++ brackets n ∧
      (name ≠ [] ∨ 0 < n) ∧ '[' ∉ name ∧ ']' ∉ name ∧
      hops = fieldHops name ++ List.replicate n .elements := by
  unfold parsePart
  constructor
  · intro h
    rcases hSplit : splitElements (trim part) with ⟨name, n⟩
    rw [hSplit] at h
    simp only at h
    split at h
    · cases h
    · next hSome =>
      split at h
      · cases h
      · next hBrackets =>
        cases h
        refine ⟨name, n, eq_of_splitElements hSplit, ?_, ?_, ?_, rfl⟩
        · by_contra hNone
          rw [not_or, not_not, Nat.not_lt, Nat.le_zero] at hNone
          simp [hNone.1, hNone.2] at hSome
        · intro hMem
          simp [hMem] at hBrackets
        · intro hMem
          simp [hMem] at hBrackets
  · rintro ⟨name, n, hTrim, hSome, hOpen, hClose, rfl⟩
    rw [hTrim, splitElements_append hClose]
    have hNotEmpty : ¬(name.isEmpty && n == 0) = true := by
      rcases hSome with hName | hCount
      · simp [hName]
      · simp [Nat.ne_of_gt hCount]
    have hNoBracket : ¬(name.contains '[' || name.contains ']') = true := by
      simp [hOpen, hClose]
    simp only [if_neg hNotEmpty, if_neg hNoBracket]
    rfl

/-! ## Hops that can be read -/

/-- What a name can be: no part is empty, begins with a blank, or has a dot or a bracket in it. -/
structure IsName (name : List Char) : Prop where
  ne_nil : name ≠ []
  head : ∀ c ∈ name.head?, isBlank c = false
  noDot : '.' ∉ name
  noOpen : '[' ∉ name
  noClose : ']' ∉ name

/-- The hops that a text can give. A name ends in a blank only if a step over elements is next. -/
inductive AreReadable : List Hop → Prop
  | nil : AreReadable []
  | elements {hops : List Hop} (hRest : AreReadable hops) : AreReadable (.elements :: hops)
  | field {name : String} {hops : List Hop} (hName : IsName name.toList)
      (hEnd : (∀ c ∈ name.toList.getLast?, isBlank c = false) ∨ hops.head? = some .elements)
      (hRest : AreReadable hops) : AreReadable (.field name :: hops)

theorem AreReadable.replicate_append {hops : List Hop} (h : AreReadable hops) (n : Nat) :
    AreReadable (List.replicate n .elements ++ hops) := by
  induction n with
  | zero => exact h
  | succ n ih => exact .elements ih

theorem areReadable_of_parsePart {whole : String} {part : List Char} {hops rest : List Hop}
    (h : parsePart whole part = .ok hops) (hDot : '.' ∉ part) (hRest : AreReadable rest) :
    AreReadable (hops ++ rest) := by
  obtain ⟨name, n, hTrim, hSome, hOpen, hClose, rfl⟩ := parsePart_eq_ok_iff.mp h
  have hTrimmed := isTrimmed_trim part
  rw [hTrim] at hTrimmed
  rw [List.append_assoc, fieldHops]
  split
  · exact hRest.replicate_append n
  · next hName =>
    have hName' : name ≠ [] := by simpa using hName
    have hMem : '.' ∉ name := by
      intro hMem
      have hPart : '.' ∈ trim part := hTrim ▸ List.mem_append_left _ hMem
      exact hDot ((trim_sublist part).subset hPart)
    refine .field ?_ ?_ (hRest.replicate_append n)
    · rw [String.toList_ofList]
      refine ⟨hName', ?_, hMem, hOpen, hClose⟩
      intro c hc
      refine hTrimmed.head c ?_
      rw [Option.mem_def] at hc
      rw [List.head?_append, hc]
      rfl
    · -- the name is what is trimmed, unless elements stand behind it
      rw [String.toList_ofList]
      cases n with
      | zero =>
        left
        have hLast := hTrimmed.last
        rwa [append_brackets_zero] at hLast
      | succ n => exact .inr rfl

theorem areReadable_of_parseParts {whole : String} {parts : List (List Char)} {hops : List Hop}
    (h : parseParts whole parts = .ok hops) (hParts : ∀ part ∈ parts, '.' ∉ part) :
    AreReadable hops := by
  induction parts generalizing hops with
  | nil =>
    cases h
    exact .nil
  | cons part parts ih =>
    obtain ⟨hFirst, hLater⟩ := List.forall_mem_cons.mp hParts
    obtain ⟨first, hPart, h⟩ := bind_eq_ok_iff.mp h
    obtain ⟨rest, hRest, h⟩ := bind_eq_ok_iff.mp h
    rw [← pure_eq_ok_iff.mp h]
    exact areReadable_of_parsePart hPart hFirst (ih hRest hLater)

/-! ## Texts -/

/-- The text of hops behind a first one. -/
def laterText (hops : List Hop) : List Char :=
  hops.flatMap fun hop => (laterHopText hop).toList

theorem toList_text (hop : Hop) (hops : List Hop) :
    (text ⟨hop :: hops⟩).toList = (hopText hop).toList ++ laterText hops := by
  rw [text, String.toList_append, String.toList_join, laterText, List.flatMap_map]

/-- What stands between the dots of a text that goes on with `hops` behind `part`. -/
def partsFrom (part : List Char) : List Hop → List (List Char)
  | [] => [part]
  | .elements :: hops => partsFrom (part ++ ['[', ']']) hops
  | .field name :: hops => part :: partsFrom name.toList hops

theorem partsFrom_ne_nil (part : List Char) (hops : List Hop) : partsFrom part hops ≠ [] := by
  induction hops generalizing part with
  | nil => exact List.cons_ne_nil _ _
  | cons hop hops ih =>
    cases hop with
    | elements => exact ih _
    | field name => exact List.cons_ne_nil _ _

theorem intercalate_partsFrom (part : List Char) (hops : List Hop) :
    ['.'].intercalate (partsFrom part hops) = part ++ laterText hops := by
  induction hops generalizing part with
  | nil => simp [partsFrom, laterText, List.intercalate]
  | cons hop hops ih =>
    cases hop with
    | elements =>
      rw [partsFrom, ih, List.append_assoc]
      rfl
    | field name =>
      obtain ⟨next, parts, hParts⟩ := List.exists_cons_of_ne_nil (partsFrom_ne_nil name.toList hops)
      rw [partsFrom, hParts, List.intercalate_cons_cons, ← hParts, ih]
      simp [laterText, laterHopText]

/-- The part of a text that was read so far: a name, perhaps with `[]` behind it, and what follows. -/
structure IsPart (name : List Char) (n : Nat) (hops : List Hop) : Prop where
  notEmpty : name ≠ [] ∨ 0 < n
  head : ∀ c ∈ name.head?, isBlank c = false
  noDot : '.' ∉ name
  noOpen : '[' ∉ name
  noClose : ']' ∉ name
  last : n = 0 → (∀ c ∈ name.getLast?, isBlank c = false) ∨ hops.head? = some .elements

namespace IsPart

variable {name : List Char} {n : Nat} {hops : List Hop}

theorem step (h : IsPart name n (.elements :: hops)) : IsPart name (n + 1) hops :=
  { h with
    notEmpty := .inr (Nat.succ_pos n)
    last := nofun }

theorem noDot_append (h : IsPart name n hops) : '.' ∉ name ++ brackets n := by
  rw [List.mem_append, not_or]
  refine ⟨h.noDot, ?_⟩
  rw [brackets, List.mem_flatten]
  rintro ⟨part, hPart, hMem⟩
  rw [List.eq_of_mem_replicate hPart] at hMem
  exact absurd hMem (by decide)

theorem head_append (h : IsPart name n hops) (rest : List Char) :
    ∀ c ∈ (name ++ brackets n ++ rest).head?, isBlank c = false := by
  intro c hc
  cases name with
  | cons first name =>
    cases hc
    exact h.head _ rfl
  | nil =>
    -- the text begins with a bracket
    have hHead := head?_brackets (h.notEmpty.resolve_left (not_not_intro rfl))
    rw [List.nil_append, List.head?_append, hHead] at hc
    cases hc
    decide

theorem last_append (h : IsPart name n hops) (hHead : hops.head? ≠ some .elements) :
    ∀ c ∈ (name ++ brackets n).getLast?, isBlank c = false := by
  cases n with
  | zero =>
    rw [append_brackets_zero]
    exact (h.last rfl).resolve_right hHead
  | succ n =>
    intro c hc
    rw [brackets_succ, ← List.append_assoc, List.getLast?_append] at hc
    cases hc
    decide

theorem isTrimmed (h : IsPart name n hops) (hHead : hops.head? ≠ some .elements) :
    IsTrimmed (name ++ brackets n) := by
  have hFirst := h.head_append []
  rw [List.append_nil] at hFirst
  exact ⟨hFirst, h.last_append hHead⟩

theorem parsePart (h : IsPart name n hops) (hHead : hops.head? ≠ some .elements) (whole : String) :
    FieldPath.parsePart whole (name ++ brackets n) =
      .ok (fieldHops name ++ List.replicate n .elements) := by
  rw [parsePart_eq_ok_iff]
  exact ⟨name, n, (h.isTrimmed hHead).trim_eq, h.notEmpty, h.noOpen, h.noClose, rfl⟩

end IsPart

theorem AreReadable.isPart {name : String} {hops : List Hop} (h : AreReadable (.field name :: hops)) :
    IsPart name.toList 0 hops := by
  cases h with
  | field hName hEnd _ =>
    exact ⟨.inl hName.ne_nil, hName.head, hName.noDot, hName.noOpen, hName.noClose, fun _ => hEnd⟩

theorem AreReadable.toList_ne_nil {name : String} {hops : List Hop}
    (h : AreReadable (.field name :: hops)) : name.toList ≠ [] := by
  cases h with
  | field hName _ _ => exact hName.ne_nil

theorem AreReadable.tail {hop : Hop} {hops : List Hop} (h : AreReadable (hop :: hops)) :
    AreReadable hops := by
  cases h with
  | elements hRest => exact hRest
  | field _ _ hRest => exact hRest

section

variable {name : List Char} {n : Nat} {hops : List Hop}

/-- The text from a part on has no blank at its end. -/
theorem last_laterText (hPart : IsPart name n hops) (h : AreReadable hops) :
    ∀ c ∈ (name ++ brackets n ++ laterText hops).getLast?, isBlank c = false := by
  -- a step over elements goes on with the part, and a name begins the next one
  induction hops generalizing name n with
  | nil =>
    rw [show laterText [] = [] from rfl, List.append_nil]
    exact hPart.last_append nofun
  | cons hop hops ih =>
    cases hop with
    | elements =>
      have hText : name ++ brackets n ++ laterText (.elements :: hops) =
          name ++ brackets (n + 1) ++ laterText hops := by
        rw [brackets_succ]
        simp [laterText, laterHopText, elementsText]
      rw [hText]
      exact ih hPart.step h.tail
    | field next =>
      -- the next name is not empty, so the end is that of what begins there
      have hNext := ih h.isPart h.tail
      have hSome : next.toList ++ laterText hops ≠ [] :=
        List.append_ne_nil_of_left_ne_nil h.toList_ne_nil _
      have hText : laterText (.field next :: hops) = '.' :: (next.toList ++ laterText hops) := by
        simp [laterText, laterHopText]
      rw [append_brackets_zero] at hNext
      rw [hText, List.getLast?_append_of_ne_nil _ (List.cons_ne_nil _ _),
        List.getLast?_cons_of_ne_nil hSome]
      exact hNext

theorem noDot_partsFrom {part : List Char} (hPart : '.' ∉ part) (h : AreReadable hops) :
    ∀ p ∈ partsFrom part hops, '.' ∉ p := by
  induction hops generalizing part with
  | nil =>
    rw [partsFrom, List.forall_mem_singleton]
    exact hPart
  | cons hop hops ih =>
    cases hop with
    | elements => exact ih (by simp [hPart]) h.tail
    | field next =>
      rw [partsFrom, List.forall_mem_cons]
      exact ⟨hPart, ih h.isPart.noDot h.tail⟩

/-- The parts of a text are read as the hops of the first one and those behind it. -/
theorem parseParts_partsFrom (hPart : IsPart name n hops) (h : AreReadable hops) (whole : String) :
    parseParts whole (partsFrom (name ++ brackets n) hops) =
      .ok (fieldHops name ++ List.replicate n .elements ++ hops) := by
  -- on the hops behind the part, which are split again where a name begins
  induction hops generalizing name n with
  | nil =>
    rw [partsFrom, parseParts, hPart.parsePart nofun]
    rfl
  | cons hop hops ih =>
    cases hop with
    | elements =>
      rw [partsFrom, List.append_assoc, ← brackets_succ, ih hPart.step h.tail,
        List.replicate_succ']
      simp
    | field next =>
      have hNext := ih h.isPart h.tail
      rw [append_brackets_zero] at hNext
      rw [partsFrom, parseParts, hPart.parsePart nofun, hNext, fieldHops_toList h.toList_ne_nil]
      rfl

/-- A text of a part and more hops has no white space at its ends, and these parts. -/
theorem splitAll_of_toList_eq {text : String} (hPart : IsPart name n hops) (h : AreReadable hops)
    (hText : text.toList = name ++ brackets n ++ laterText hops) :
    trim text.toList = text.toList ∧
      splitAll '.' text.toList = partsFrom (name ++ brackets n) hops := by
  rw [hText]
  refine ⟨IsTrimmed.trim_eq ⟨hPart.head_append _, last_laterText hPart h⟩, ?_⟩
  rw [← intercalate_partsFrom]
  exact splitAll_intercalate (partsFrom_ne_nil _ _) (noDot_partsFrom hPart.noDot_append h)

/-- A text of a part and more hops is read as the hops of the part and these. -/
theorem parse_of_toList_eq {text : String} (hPart : IsPart name n hops) (h : AreReadable hops)
    (hText : text.toList = name ++ brackets n ++ laterText hops)
    (hStars : starsFit (fieldHops name ++ List.replicate n .elements ++ hops) = true) :
    parse text = .ok ⟨fieldHops name ++ List.replicate n .elements ++ hops⟩ := by
  obtain ⟨hTrim, hParts⟩ := splitAll_of_toList_eq hPart h hText
  have hSome : ¬text.toList.isEmpty = true := by
    rw [hText, List.isEmpty_iff]
    exact List.append_ne_nil_of_left_ne_nil (append_brackets_ne_nil hPart.notEmpty) _
  unfold parse
  simp only [hTrim, hParts, if_neg hSome, parseParts_partsFrom hPart h]
  exact if_pos hStars

end

/-- What the parse of a text says of its hops. -/
theorem parse_eq_ok {text : String} {p : FieldPath} (h : parse text = .ok p) :
    ∃ whole, parseParts whole (splitAll '.' (trim text.toList)) = .ok p.hops ∧
      starsFit p.hops = true := by
  unfold parse at h
  simp only at h
  split at h
  · cases h
  · obtain ⟨hops, hHops, h⟩ := bind_eq_ok_iff.mp h
    split at h
    · next hStars =>
      cases h
      exact ⟨_, hHops, hStars⟩
    · cases h

theorem areReadable_of_parse {text : String} {p : FieldPath} (h : parse text = .ok p) :
    AreReadable p.hops := by
  obtain ⟨whole, hHops, -⟩ := parse_eq_ok h
  exact areReadable_of_parseParts hHops fun part hPart => not_mem_of_mem_splitAll hPart

theorem hops_ne_nil_of_parsePart {whole : String} {part : List Char} {hops : List Hop}
    (h : parsePart whole part = .ok hops) : hops ≠ [] := by
  obtain ⟨name, n, -, hSome, -, -, rfl⟩ := parsePart_eq_ok_iff.mp h
  rcases hSome with hName | hCount
  · simp [fieldHops, hName]
  · simp [Nat.ne_of_gt hCount]

theorem hops_ne_nil_of_parse {text : String} {p : FieldPath} (h : parse text = .ok p) :
    p.hops ≠ [] := by
  obtain ⟨whole, hHops, -⟩ := parse_eq_ok h
  rw [splitAll_eq_splitOn] at hHops
  obtain ⟨part, parts, hParts⟩ := List.exists_cons_of_ne_nil
    (List.splitOnP_ne_nil (· == '.') (trim text.toList))
  rw [List.splitOn, hParts] at hHops
  obtain ⟨first, hPart, hHops⟩ := bind_eq_ok_iff.mp hHops
  obtain ⟨rest, -, hHops⟩ := bind_eq_ok_iff.mp hHops
  rw [← pure_eq_ok_iff.mp hHops]
  exact List.append_ne_nil_of_left_ne_nil (hops_ne_nil_of_parsePart hPart) rest

/-- A path that was read begins with a part, and its text with the text of this part. -/
theorem exists_isPart_of_parse {text : String} {p : FieldPath} (h : parse text = .ok p) :
    ∃ name n hops, IsPart name n hops ∧ AreReadable hops ∧
      p.hops = fieldHops name ++ List.replicate n .elements ++ hops ∧
      p.text.toList = name ++ brackets n ++ laterText hops := by
  have hHops := areReadable_of_parse h
  obtain ⟨hop, hops, hCons⟩ := List.exists_cons_of_ne_nil (hops_ne_nil_of_parse h)
  obtain ⟨all⟩ := p
  obtain rfl : all = hop :: hops := hCons
  cases hop with
  | elements =>
    -- the first part has no name
    have hPart : IsPart [] 1 hops := ⟨.inr Nat.one_pos, nofun, nofun, nofun, nofun, nofun⟩
    exact ⟨[], 1, hops, hPart, hHops.tail, rfl, toList_text .elements hops⟩
  | field name =>
    refine ⟨name.toList, 0, hops, hHops.isPart, hHops.tail, ?_, ?_⟩
    · rw [fieldHops_toList hHops.toList_ne_nil]
      rfl
    · rw [toList_text, append_brackets_zero]
      rfl

/-- **The canonical text.** A path that was read is read back from its canonical text. -/
theorem parse_text {text : String} {p : FieldPath} (h : parse text = .ok p) :
    parse p.text = .ok p := by
  obtain ⟨name, n, hops, hPart, hHops, hAll, hText⟩ := exists_isPart_of_parse h
  obtain ⟨-, -, hStars⟩ := parse_eq_ok h
  rw [hAll] at hStars
  rw [parse_of_toList_eq hPart hHops hText hStars, ← hAll]

/-! ## Characters -/

/-- The names in hops, one behind the other. -/
def names (hops : List Hop) : List Char :=
  hops.flatMap fun
    | .field name => name.toList
    | .elements => []

theorem names_append (hops hops' : List Hop) : names (hops ++ hops') = names hops ++ names hops' :=
  List.flatMap_append

theorem names_fieldHops (name : List Char) : names (fieldHops name) = name := by
  rw [fieldHops]
  split
  · next hEmpty => exact (List.isEmpty_iff.mp hEmpty).symm
  · simp [names]

theorem names_parsePart_sublist {whole : String} {part : List Char} {hops : List Hop}
    (h : parsePart whole part = .ok hops) : (names hops).Sublist part := by
  obtain ⟨name, n, hTrim, -, -, -, rfl⟩ := parsePart_eq_ok_iff.mp h
  have hElements : names (List.replicate n .elements) = [] := by
    simp [names, List.flatMap_replicate]
  have hPart : name.Sublist (trim part) := hTrim ▸ List.sublist_append_left name _
  rw [names_append, names_fieldHops, hElements, List.append_nil]
  exact hPart.trans (trim_sublist part)

theorem names_parseParts_sublist {whole : String} {parts : List (List Char)} {hops : List Hop}
    (h : parseParts whole parts = .ok hops) : (names hops).Sublist parts.flatten := by
  induction parts generalizing hops with
  | nil =>
    cases h
    exact List.Sublist.refl []
  | cons part parts ih =>
    obtain ⟨first, hPart, h⟩ := bind_eq_ok_iff.mp h
    obtain ⟨rest, hRest, h⟩ := bind_eq_ok_iff.mp h
    rw [← pure_eq_ok_iff.mp h, names_append, List.flatten_cons]
    exact (names_parsePart_sublist hPart).append (ih hRest)

/-- The names of a path stand in its text, in their order. -/
theorem names_sublist_of_parse {text : String} {p : FieldPath} (h : parse text = .ok p) :
    (names p.hops).Sublist text.toList := by
  obtain ⟨whole, hHops, -⟩ := parse_eq_ok h
  have hFlatten := flatten_sublist_intercalate ['.'] (splitAll '.' (trim text.toList))
  rw [intercalate_splitAll] at hFlatten
  exact ((names_parseParts_sublist hHops).trans hFlatten).trans (trim_sublist _)

theorem count_brackets {c : Char} (hPunctuation : c ∉ ['.', '[', ']']) :
    elementsText.toList.count c = 0 := by
  rw [List.count_eq_zero]
  exact fun hMem => hPunctuation (List.mem_cons_of_mem '.' hMem)

theorem count_laterText {c : Char} (hPunctuation : c ∉ ['.', '[', ']']) (hops : List Hop) :
    (laterText hops).count c = (names hops).count c := by
  induction hops with
  | nil => rfl
  | cons hop hops ih =>
    have hFirst : (laterHopText hop).toList.count c = (names [hop]).count c := by
      cases hop with
      | elements => exact count_brackets hPunctuation
      | field name =>
        have hDot : c ≠ '.' := fun hSame => hPunctuation (hSame ▸ List.mem_cons_self)
        rw [laterHopText, String.toList_append]
        exact (List.count_cons_of_ne hDot.symm).trans (by simp [names])
    rw [← List.singleton_append, names_append, List.count_append, ← ih, ← hFirst,
      List.singleton_append, laterText, List.flatMap_cons, List.count_append]
    rfl

theorem count_text {c : Char} (hPunctuation : c ∉ ['.', '[', ']']) (p : FieldPath) :
    p.text.toList.count c = (names p.hops).count c := by
  obtain ⟨hops⟩ := p
  cases hops with
  | nil => rfl
  | cons hop hops =>
    have hFirst : (hopText hop).toList.count c = (names [hop]).count c := by
      cases hop with
      | elements => exact count_brackets hPunctuation
      | field name => simp [hopText, names]
    rw [toList_text, List.count_append, count_laterText hPunctuation, hFirst, ← List.count_append,
      ← names_append]
    rfl

/-- But for dots and brackets the canonical text has no character more often than the text read. -/
theorem count_text_le {text : String} {p : FieldPath} (h : parse text = .ok p) {c : Char}
    (hPunctuation : c ∉ ['.', '[', ']']) : p.text.toList.count c ≤ text.toList.count c := by
  rw [count_text hPunctuation]
  exact (names_sublist_of_parse h).count_le c

end FieldPath

end RefRules
