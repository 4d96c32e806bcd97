import RefRules.Proofs.PathText

/-!
# RefRules — the parts of a field path

A text is a path exactly when each of its parts, the texts between its dots, is a name with `[]`
behind it, or one of these. White space around the parts is not looked at, and a part without a name
goes on with the part in front of it, so one path has many texts. In one of them there is no white
space around the parts, and a name stands behind every dot.

Main results:

* `FieldPath.parse_eq_ok_iff` — which texts are paths, and the hops that they give;
* `FieldPath.isCanonical_iff_text_eq` — which texts are printed as they were read;
* `FieldPath.parse_text_canonical` — a path that was read is read back from its own text, which is the
  only canonical one, and no two paths have the same text.
-/

namespace RefRules

open Text

namespace FieldPath

/-! ## Parts -/

/-- What stands between the dots of a text, without the white space around it. -/
def parts (text : String) : List (List Char) :=
  (splitAll '.' (trim text.toList)).map trim

/-- The hops that a part stands for: a name with `[]` behind it, or one of these. -/
inductive IsReadAs : List Char → List Hop → Prop
  | intro {name : List Char} {n : Nat} (hSome : name ≠ [] ∨ 0 < n) (hOpen : '[' ∉ name)
      (hClose : ']' ∉ name) :
      IsReadAs (name ++ brackets n) (fieldHops name ++ List.replicate n .elements)

/-- The hops of parts, one behind the other, where `R` says what those of a part are. -/
inductive HopsOf (R : List Char → List Hop → Prop) : List (List Char) → List Hop → Prop
  | nil : HopsOf R [] []
  | cons {part : List Char} {parts : List (List Char)} {hops rest : List Hop} (hPart : R part hops)
      (hRest : HopsOf R parts rest) : HopsOf R (part :: parts) (hops ++ rest)

theorem parsePart_eq_ok_iff_isReadAs {whole : String} {part : List Char} {hops : List Hop} :
    parsePart whole part = .ok hops ↔ IsReadAs (trim part) hops := by
  rw [parsePart_eq_ok_iff]
  constructor
  · rintro ⟨name, n, hTrim, hSome, hOpen, hClose, rfl⟩
    rw [hTrim]
    exact .intro hSome hOpen hClose
  · generalize hTrim : trim part = trimmed
    rintro ⟨hSome, hOpen, hClose⟩
    exact ⟨_, _, rfl, hSome, hOpen, hClose, rfl⟩

theorem parseParts_eq_ok_iff (whole : String) {parts : List (List Char)} {hops : List Hop} :
    parseParts whole parts = .ok hops ↔ HopsOf IsReadAs (parts.map trim) hops := by
  induction parts generalizing hops with
  | nil =>
    rw [parseParts, Except.ok.injEq]
    constructor
    · rintro rfl
      exact .nil
    · rintro ⟨⟩
      rfl
  | cons part parts ih =>
    rw [parseParts, bind_eq_ok_iff]
    constructor
    · rintro ⟨first, hFirst, h⟩
      obtain ⟨rest, hRest, h⟩ := bind_eq_ok_iff.mp h
      rw [← pure_eq_ok_iff.mp h]
      exact .cons (parsePart_eq_ok_iff_isReadAs.mp hFirst) (ih.mp hRest)
    · rintro ⟨⟩
      next first rest hFirst hRest =>
        refine ⟨first, parsePart_eq_ok_iff_isReadAs.mpr hFirst, ?_⟩
        rw [ih.mpr hRest]
        rfl

/-- A part has something in it. -/
theorem IsReadAs.ne_nil {part : List Char} {hops : List Hop} (h : IsReadAs part hops) : part ≠ [] := by
  obtain ⟨hSome, -, -⟩ := h
  exact append_brackets_ne_nil hSome

/-- **Texts of paths.** A text is a path exactly when its parts are read, and stars stand only where
they may. -/
theorem parse_eq_ok_iff {text : String} {p : FieldPath} :
    parse text = .ok p ↔ HopsOf IsReadAs (parts text) p.hops ∧ starsFit p.hops = true := by
  rw [parts, ← parseParts_eq_ok_iff (String.ofList (trim text.toList))]
  unfold parse
  simp only
  split
  · next hEmpty =>
    -- a text without characters has one part, which is empty
    have hNone : ∀ hops, parseParts (String.ofList (trim text.toList))
        (splitAll '.' (trim text.toList)) ≠ .ok hops := by
      rintro hops h
      rw [List.isEmpty_iff.mp hEmpty, parseParts_eq_ok_iff] at h
      cases h with
      | cons hPart => exact hPart.ne_nil rfl
    simp [hNone]
  · rw [bind_eq_ok_iff]
    constructor
    · rintro ⟨hops, hHops, h⟩
      split at h
      · next hStars =>
        cases h
        exact ⟨hHops, hStars⟩
      · cases h
    · rintro ⟨hHops, hStars⟩
      exact ⟨p.hops, hHops, by rw [if_pos hStars]; rfl⟩

/-! ## Canonical texts -/

/-- No white space stands around the parts of the text, and a name stands behind every dot. -/
structure IsCanonical (text : String) : Prop where
  unspaced : text.toList = ['.'].intercalate (parts text)
  named : ∀ part ∈ (parts text).tail, part.head? ≠ some '['

theorem laterText_replicate_append (n : Nat) (hops : List Hop) :
    laterText (List.replicate n .elements ++ hops) = brackets n ++ laterText hops := by
  rw [laterText, List.flatMap_append, List.flatMap_replicate]
  rfl

theorem partsFrom_replicate_append (part : List Char) (n : Nat) (hops : List Hop) :
    partsFrom part (List.replicate n .elements ++ hops) = partsFrom (part ++ brackets n) hops := by
  induction n generalizing part with
  | zero => rw [append_brackets_zero]; rfl
  | succ n ih =>
    rw [List.replicate_succ, List.cons_append, partsFrom, ih, List.append_assoc]
    rfl

/-- The text of a part and more hops begins with the part. -/
theorem toList_text_append {name : List Char} {n : Nat} (hSome : name ≠ [] ∨ 0 < n)
    (hops : List Hop) :
    (text ⟨fieldHops name ++ List.replicate n .elements ++ hops⟩).toList =
      name ++ brackets n ++ laterText hops := by
  by_cases hName : name = []
  · -- without a name the first hop is one over elements
    subst hName
    obtain ⟨m, rfl⟩ : ∃ m, n = m + 1 := by
      have hCount := hSome.resolve_left (not_not_intro rfl)
      exact ⟨n - 1, by omega⟩
    have hHops : fieldHops [] ++ List.replicate (m + 1) .elements ++ hops =
        .elements :: (List.replicate m .elements ++ hops) := rfl
    have hBrackets : brackets (m + 1) = (hopText .elements).toList ++ brackets m := by
      rw [brackets, List.replicate_succ, List.flatten_cons]
      rfl
    rw [hHops, toList_text, laterText_replicate_append, hBrackets, List.nil_append,
      List.append_assoc]
  · have hHops : fieldHops name ++ List.replicate n .elements ++ hops =
        .field (String.ofList name) :: (List.replicate n .elements ++ hops) := by
      rw [fieldHops, if_neg (by rwa [List.isEmpty_iff])]
      rfl
    rw [hHops, toList_text, laterText_replicate_append, hopText, String.toList_ofList,
      List.append_assoc]

section

variable {name : List Char} {n : Nat} {hops : List Hop}

theorem isTrimmed_of_mem_partsFrom (hPart : IsPart name n hops) (h : AreReadable hops) :
    ∀ part ∈ partsFrom (name ++ brackets n) hops, IsTrimmed part := by
  -- on the hops behind the part, which go on with it or begin the next one
  induction hops generalizing name n with
  | nil =>
    have hEnd : ([] : List Hop).head? ≠ some .elements := by simp
    rw [partsFrom, List.forall_mem_singleton]
    exact hPart.isTrimmed hEnd
  | cons hop hops ih =>
    cases hop with
    | elements =>
      rw [partsFrom, List.append_assoc, ← brackets_succ]
      exact ih hPart.step h.tail
    | field next =>
      have hEnd : (Hop.field next :: hops).head? ≠ some .elements := by simp
      have hNext := ih h.isPart h.tail
      rw [append_brackets_zero] at hNext
      rw [partsFrom, List.forall_mem_cons]
      exact ⟨hPart.isTrimmed hEnd, hNext⟩

theorem head?_of_mem_partsFrom {first : List Char} (hSome : first ≠ []) (hOpen : first.head? ≠ some '[')
    (h : AreReadable hops) : ∀ part ∈ partsFrom first hops, part.head? ≠ some '[' := by
  induction hops generalizing first with
  | nil =>
    rw [partsFrom, List.forall_mem_singleton]
    exact hOpen
  | cons hop hops ih =>
    cases hop with
    | elements =>
      -- what is appended does not change how the part begins
      have hHead : (first ++ ['[', ']']).head? ≠ some '[' := by
        rwa [List.head?_append_of_ne_nil _ hSome]
      exact ih (List.append_ne_nil_of_left_ne_nil hSome _) hHead h.tail
    | field next =>
      rw [partsFrom, List.forall_mem_cons]
      refine ⟨hOpen, ih h.toList_ne_nil ?_ h.tail⟩
      intro hHead
      exact h.isPart.noOpen (List.mem_of_head? hHead)

/-- Behind the first part all parts begin with a name. -/
theorem head?_of_mem_tail_partsFrom (h : AreReadable hops) (first : List Char) :
    ∀ part ∈ (partsFrom first hops).tail, part.head? ≠ some '[' := by
  induction hops generalizing first with
  | nil => nofun
  | cons hop hops ih =>
    cases hop with
    | elements => exact ih h.tail _
    | field next =>
      rw [partsFrom, List.tail_cons]
      refine head?_of_mem_partsFrom h.toList_ne_nil ?_ h.tail
      intro hHead
      exact h.isPart.noOpen (List.mem_of_head? hHead)

end

theorem isCanonical_text {text : String} {p : FieldPath} (h : parse text = .ok p) :
    IsCanonical p.text := by
  obtain ⟨name, n, hops, hPart, hHops, -, hText⟩ := exists_isPart_of_parse h
  obtain ⟨hTrim, hSplit⟩ := splitAll_of_toList_eq hPart hHops hText
  have hParts : parts p.text = partsFrom (name ++ brackets n) hops := by
    rw [parts, hTrim, hSplit]
    refine (List.map_congr_left fun part hMem => ?_).trans (List.map_id _)
    exact (isTrimmed_of_mem_partsFrom hPart hHops part hMem).trim_eq
  refine ⟨?_, ?_⟩
  · rw [hParts, intercalate_partsFrom, hText]
  · rw [hParts]
    exact head?_of_mem_tail_partsFrom hHops _

/-- The hops of parts that begin with names are split into these parts again. -/
theorem partsFrom_of_hopsOf {parts : List (List Char)} {hops : List Hop} (h : HopsOf IsReadAs parts hops)
    (hNamed : ∀ part ∈ parts, part.head? ≠ some '[') (first : List Char) :
    partsFrom first hops = first :: parts := by
  induction h generalizing first with
  | nil => rfl
  | @cons part parts hops rest hPart _ ih =>
    obtain ⟨hBegin, hLater⟩ := List.forall_mem_cons.mp hNamed
    obtain ⟨hSome, -, -⟩ := hPart
    next name n =>
      -- without a name the part would begin with a bracket
      have hName : name ≠ [] := by
        rintro rfl
        exact hBegin (head?_brackets (hSome.resolve_left (not_not_intro rfl)))
      rw [fieldHops, if_neg (by rwa [List.isEmpty_iff]), List.append_assoc, List.singleton_append,
        partsFrom, String.toList_ofList, partsFrom_replicate_append, ih hLater]

/-- The text of the hops of parts is that of the parts, if later ones begin with names. -/
theorem toList_text_of_hopsOf {parts : List (List Char)} {hops : List Hop}
    (h : HopsOf IsReadAs parts hops) (hSome : hops ≠ [])
    (hNamed : ∀ part ∈ parts.tail, part.head? ≠ some '[') :
    (text ⟨hops⟩).toList = ['.'].intercalate parts := by
  cases h with
  | nil => exact absurd rfl hSome
  | cons hPart hRest =>
    obtain ⟨hPart, -, -⟩ := hPart
    rw [toList_text_append hPart, ← intercalate_partsFrom, partsFrom_of_hopsOf hRest hNamed]

/-- **Texts that are printed as they were read** are the canonical ones. -/
theorem isCanonical_iff_text_eq {text : String} {p : FieldPath} (h : parse text = .ok p) :
    IsCanonical text ↔ p.text = text := by
  constructor
  · rintro ⟨hText, hNamed⟩
    obtain ⟨hHops, -⟩ := parse_eq_ok_iff.mp h
    rw [← String.toList_inj, hText]
    exact toList_text_of_hopsOf hHops (hops_ne_nil_of_parse h) hNamed
  · intro hText
    exact hText ▸ isCanonical_text h

/-- **Canonical texts.** A path that was read from any text is read back from its own text, as the
same hops, of which the same is said: whether they are a single field, the pattern of names, and where
stars may stand. Paths that were read have the same text exactly when they have the same hops, and
among all texts of a path its own is the only canonical one. -/
theorem parse_text_canonical {text : String} {p : FieldPath} (h : parse text = .ok p) :
    (∃ q, parse p.text = .ok q ∧ q.hops = p.hops ∧ q.isSingleField = p.isSingleField ∧
      q.pattern? = p.pattern? ∧ starsFit q.hops = starsFit p.hops) ∧
    (∀ other q, parse other = .ok q → (q.text = p.text ↔ q.hops = p.hops)) ∧
    (∀ other, parse other = .ok p → (IsCanonical other ↔ other = p.text)) := by
  have hBack := parse_text h
  refine ⟨⟨p, hBack, rfl, rfl, rfl, rfl⟩, ?_, ?_⟩
  · intro other q hOther
    constructor
    · -- both are read from the same text
      intro hSame
      have hBoth : parse p.text = .ok q := hSame ▸ parse_text hOther
      rw [hBack, Except.ok.injEq] at hBoth
      rw [hBoth]
    · intro hHops
      rw [FieldPath.text, FieldPath.text, hHops]
  · intro other hOther
    rw [isCanonical_iff_text_eq hOther, eq_comm]

/-- All cells of nested arrays. -/
def cellPath : FieldPath :=
  ⟨[.field "items", .field "rows ", .elements, .elements, .field "cell"]⟩

theorem isCanonical_iff_of_cellPath :
    parse " items . rows [].[] .cell " = .ok cellPath ∧
      ∀ other, parse other = .ok cellPath → (IsCanonical other ↔ other = "items.rows [][].cell") := by
  have hRead : parse " items . rows [].[] .cell " = .ok cellPath := by decide +kernel
  have hText : cellPath.text = "items.rows [][].cell" := by decide +kernel
  refine ⟨hRead, fun other hOther => ?_⟩
  rw [← hText]
  exact (parse_text_canonical hRead).2.2 other hOther

end FieldPath

end RefRules
