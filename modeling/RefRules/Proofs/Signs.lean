import RefRules.Proofs.Outcome
import RefRules.Rule.Token

/-!
# RefRules — the signs of a rule file

The text of a rule file is a row of signs: blanks, line ends, comments, and tokens, each going as far
as it can. `IsSign` says what a sign is, and `AreSigns` that a text begins with a row of them, without
a word on how they are read or on lines. The reader takes one sign at a time.

Main results:

* `Token.scanOne_eq_ok_iff` — one step reads a sign exactly when the text begins with it;
* `Token.scanFrom_eq_ok_iff` — a text has tokens exactly when it is a row of signs to its end, and the
  tokens are those of the signs;
* `Token.exists_signs_of_scanFrom_error` — any other text is read up to a place where no sign begins.
-/

namespace RefRules

open Token Text

/-! ## Runs of characters -/

/-- The characters of `run` have the property, and `rest` does not go on with another one. -/
structure IsRun (p : Char → Bool) (run rest : List Char) : Prop where
  all : ∀ c ∈ run, p c = true
  stops : ∀ c ∈ rest.head?, p c = false

theorem isRun_takeWhile (p : Char → Bool) (cs : List Char) :
    IsRun p (cs.takeWhile p) (cs.dropWhile p) where
  all c hc := List.mem_takeWhile_imp hc
  stops c hc := by
    have hHead := List.head?_dropWhile_not p cs
    rw [Option.mem_def.mp hc] at hHead
    simpa using hHead

theorem cons_eq_cons_takeWhile_append (p : Char → Bool) (c : Char) (cs : List Char) :
    c :: cs = (c :: cs.takeWhile p) ++ cs.dropWhile p :=
  congrArg (c :: ·) List.takeWhile_append_dropWhile.symm

namespace IsRun

variable {p : Char → Bool} {run rest : List Char}

theorem dropWhile_rest (h : IsRun p run rest) : rest.dropWhile p = rest := by
  cases rest with
  | nil => rfl
  | cons c rest =>
    have hStop : p c = false := h.stops c rfl
    rw [List.dropWhile_cons_of_neg (by simp [hStop])]

theorem takeWhile_eq (h : IsRun p run rest) : (run ++ rest).takeWhile p = run := by
  rw [List.takeWhile_append_of_pos h.all]
  cases rest with
  | nil => exact List.append_nil run
  | cons c rest =>
    have hStop : p c = false := h.stops c rfl
    rw [List.takeWhile_cons_of_neg (by simp [hStop]), List.append_nil]

theorem dropWhile_eq (h : IsRun p run rest) : (run ++ rest).dropWhile p = rest := by
  rw [List.dropWhile_append_of_pos h.all, h.dropWhile_rest]

end IsRun

/-! ## Strings -/

/-- How a text is written between quotes. A backslash may stand before any character, and has to stand
before a quote, a backslash and a line end. -/
inductive IsWritten : List Char → List Char → Prop
  | nil : IsWritten [] []
  | escaped {written text : List Char} (c : Char) (hRest : IsWritten written text) :
      IsWritten ('\\' :: c :: written) (c :: text)
  | plain {written text : List Char} {c : Char} (hQuote : c ≠ '"') (hSlash : c ≠ '\\')
      (hLine : c ≠ '\n') (hRest : IsWritten written text) : IsWritten (c :: written) (c :: text)

namespace Token

theorem stringBody_of_isWritten {written text : List Char} (h : IsWritten written text)
    (rest : List Char) : stringBody (written ++ '"' :: rest) = some (text, rest) := by
  induction h with
  | nil => simp [stringBody]
  | escaped c _ ih => simp [stringBody, ih]
  | plain hQuote hSlash hLine _ ih =>
    rw [List.cons_append, stringBody.eq_4]
    · simp [hLine, ih]
    · exact fun hSame => hQuote hSame
    · exact fun c rest hSame => absurd hSame hSlash

theorem exists_isWritten_of_stringBody {cs text rest : List Char}
    (h : stringBody cs = some (text, rest)) :
    ∃ written, cs = written ++ '"' :: rest ∧ IsWritten written text := by
  -- one case for each branch of the reader: nothing left, the quote, an escape, a line end, the others
  fun_induction stringBody cs generalizing text rest with
  | case1 => cases h
  | case2 rest =>
    cases h
    exact ⟨[], rfl, .nil⟩
  | case3 c after ih =>
    obtain ⟨⟨text, rest⟩, hRest, hText⟩ := Option.map_eq_some_iff.mp h
    cases hText
    obtain ⟨written, rfl, hWritten⟩ := ih hRest
    exact ⟨'\\' :: c :: written, rfl, .escaped c hWritten⟩
  | case4 => cases h
  | case5 c after hQuote hSlash hLine ih =>
    obtain ⟨⟨text, rest⟩, hRest, hText⟩ := Option.map_eq_some_iff.mp h
    cases hText
    obtain ⟨written, rfl, hWritten⟩ := ih hRest
    refine ⟨c :: written, rfl, .plain (fun hSame => hQuote hSame) ?_ (by simpa using hLine) hWritten⟩
    rintro rfl
    -- a backslash has a character behind it, since the string is closed
    cases written <;> exact hSlash _ _ rfl rfl

end Token

/-! ## Signs -/

/-- The characters behind the double slash of a comment, or behind the `#` of a header. -/
def isInLine (c : Char) : Bool :=
  c != '\n'

/-- A sign, what token it is if it is one, and the characters that follow it. -/
inductive IsSign : List Char → Option TokenKind → List Char → Prop
  | blank {c : Char} {rest : List Char} (hBlank : c = ' ' ∨ c = '\t' ∨ c = '\r') :
      IsSign [c] none rest
  | lineEnd {rest : List Char} : IsSign ['\n'] none rest
  | comment {text rest : List Char} (hRun : IsRun isInLine text rest) :
      IsSign ('/' :: '/' :: text) none rest
  | header {text rest : List Char} (hRun : IsRun isInLine text rest) (hName : trim text ≠ []) :
      IsSign ('#' :: text) (some (.header (String.ofList (trim text)))) rest
  | string {written text rest : List Char} (hWritten : IsWritten written text) :
      IsSign ('"' :: written ++ ['"']) (some (.string (String.ofList text))) rest
  | integer {c : Char} {digits rest : List Char} {value : Int} (hStart : c.isDigit = true ∨ c = '-')
      (hRun : IsRun Char.isDigit digits rest) (hValue : integer? (c :: digits) = some value) :
      IsSign (c :: digits) (some (.integer value)) rest
  | ident {c : Char} {cs rest : List Char} (hStart : isIdentStart c = true)
      (hRun : IsRun isIdentChar cs rest) :
      IsSign (c :: cs) (some (.ident (String.ofList (c :: cs)))) rest
  | leftParen {rest : List Char} : IsSign ['('] (some .leftParen) rest
  | rightParen {rest : List Char} : IsSign [')'] (some .rightParen) rest
  | comma {rest : List Char} : IsSign [','] (some .comma) rest
  | semicolon {rest : List Char} : IsSign [';'] (some .semicolon) rest

/-- How far a sign moves the count of lines: only a line end of its own does. -/
def lineStep (chars : List Char) : Nat :=
  if chars = ['\n'] then 1 else 0

theorem lineStep_cons_of_ne {c : Char} {cs : List Char} (h : c ≠ '\n') : lineStep (c :: cs) = 0 := by
  rw [lineStep, if_neg]
  intro hSame
  exact h (List.cons.inj hSame).1

namespace Token

/-! ## One sign -/

/-- The characters at which a sign begins that is no word. -/
def opening : List Char :=
  [' ', '\t', '\r', '\n', '/', '#', '"']

/-- At any other character stands an integer, an identifier or punctuation. -/
theorem scanOne_of_not_mem_opening (line : Nat) (c : Char) (cs : List Char) :
    c ∉ opening → scanOne line c cs =
      if c.isDigit || c == '-' then
        match integer? (c :: cs.takeWhile Char.isDigit) with
        | some value => .ok ⟨some (.integer value), cs.dropWhile Char.isDigit, line⟩
        | none => .error (.badInteger (String.ofList (c :: cs.takeWhile Char.isDigit)))
      else if isIdentStart c then
        .ok ⟨some (.ident (String.ofList (c :: cs.takeWhile isIdentChar))), cs.dropWhile isIdentChar,
          line⟩
      else
        match c with
        | '(' => .ok ⟨some .leftParen, cs, line⟩
        | ')' => .ok ⟨some .rightParen, cs, line⟩
        | ',' => .ok ⟨some .comma, cs, line⟩
        | ';' => .ok ⟨some .semicolon, cs, line⟩
        | c => .error (.badCharacter c) := by
  intro h
  simp only [opening, List.mem_cons, List.not_mem_nil, or_false, not_or] at h
  obtain ⟨hSpace, hTab, hReturn, hLine, hSlash, hHash, hQuote⟩ := h
  have hBlank : ¬(c == ' ' || c == '\t' || c == '\r') = true := by simp [hSpace, hTab, hReturn]
  -- past the tests for the signs that are left out stand the same tests
  refine (if_neg hBlank).trans ((if_neg ?_).trans ((if_neg ?_).trans ((if_neg ?_).trans (if_neg ?_))))
  · simpa using hLine
  · simpa using hSlash
  · simpa using hHash
  · simpa using hQuote

theorem ne_lineEnd_of_not_mem_opening {c : Char} (h : c ∉ opening) : c ≠ '\n' := by
  rintro rfl
  exact h (by decide)

theorem not_mem_opening {p : Char → Bool} {c : Char} (h : p c = true)
    (hOpening : opening.any p = false) : c ∉ opening := by
  intro hMem
  exact List.any_eq_false.mp hOpening c hMem h

/-- No identifier begins as an integer does. -/
theorem not_isInteger_of_isIdentStart {c : Char} (h : isIdentStart c = true) :
    (c.isDigit || c == '-') = false := by
  have hRange : 65 ≤ c.toNat := by
    simp only [isIdentStart, Char.isAlpha, Char.isUpper, Char.isLower, Bool.or_eq_true,
      Bool.and_eq_true, decide_eq_true_eq, beq_iff_eq, ge_iff_le, UInt32.le_iff_toNat_le] at h
    rcases h with (⟨hLow, -⟩ | ⟨hLow, -⟩) | rfl
    · exact hLow
    · exact Nat.le_trans (by decide) hLow
    · decide
  rw [Bool.or_eq_false_iff]
  constructor
  · rw [Char.isDigit, Bool.and_eq_false_iff, decide_eq_false_iff_not, decide_eq_false_iff_not]
    right
    intro hHigh
    have hDigit : c.toNat ≤ 57 := UInt32.le_iff_toNat_le.mp hHigh
    omega
  · refine beq_false_of_ne ?_
    rintro rfl
    exact absurd hRange (by decide)

section

variable {line : Nat} {c : Char} {cs : List Char} {s : Scanned}

theorem isSign_of_scanOne_of_mem_opening (hOpening : c ∈ opening) (h : scanOne line c cs = .ok s) :
    ∃ chars, c :: cs = chars ++ s.rest ∧ IsSign chars s.kind? s.rest ∧
      s.line = line + lineStep chars := by
  -- one case for each of the characters, in their order
  simp only [opening, List.mem_cons, List.not_mem_nil, or_false] at hOpening
  rcases hOpening with rfl | rfl | rfl | rfl | rfl | rfl | rfl
  · cases h
    exact ⟨[' '], rfl, .blank (.inl rfl), rfl⟩
  · cases h
    exact ⟨['\t'], rfl, .blank (.inr (.inl rfl)), rfl⟩
  · cases h
    exact ⟨['\r'], rfl, .blank (.inr (.inr rfl)), rfl⟩
  · cases h
    exact ⟨['\n'], rfl, .lineEnd, rfl⟩
  · cases cs with
    | nil => cases h
    | cons next rest =>
      by_cases hNext : next = '/'
      · subst hNext
        cases h
        refine ⟨'/' :: '/' :: rest.takeWhile isInLine, ?_, .comment (isRun_takeWhile isInLine rest), rfl⟩
        exact congrArg ('/' :: ·) (cons_eq_cons_takeWhile_append isInLine '/' rest)
      · simp [scanOne, hNext] at h
  · unfold scanOne at h
    -- a header has a name
    cases hName : trim (cs.takeWhile (· != '\n')) with
    | nil => simp [hName] at h
    | cons first name =>
      simp only [hName] at h
      cases h
      have hSign : IsSign ('#' :: cs.takeWhile isInLine)
          (some (.header (String.ofList (trim (cs.takeWhile isInLine))))) (cs.dropWhile isInLine) :=
        .header (isRun_takeWhile isInLine cs) (hName ▸ List.cons_ne_nil first name)
      exact ⟨_, cons_eq_cons_takeWhile_append isInLine '#' cs, hName ▸ hSign, rfl⟩
  · unfold scanOne at h
    cases hBody : stringBody cs with
    | none => simp [hBody] at h
    | some body =>
      obtain ⟨text, rest⟩ := body
      simp only [hBody] at h
      cases h
      obtain ⟨written, rfl, hWritten⟩ := exists_isWritten_of_stringBody hBody
      exact ⟨'"' :: written ++ ['"'], by simp, .string hWritten, rfl⟩

theorem isSign_of_scanOne_of_not_mem_opening (hOpening : c ∉ opening)
    (h : scanOne line c cs = .ok s) :
    ∃ chars, c :: cs = chars ++ s.rest ∧ IsSign chars s.kind? s.rest ∧
      s.line = line + lineStep chars := by
  have hStep : ∀ word, lineStep (c :: word) = 0 := fun word =>
    lineStep_cons_of_ne (ne_lineEnd_of_not_mem_opening hOpening)
  rw [scanOne_of_not_mem_opening line c cs hOpening] at h
  split at h
  · next hDigit =>
    rw [Bool.or_eq_true, beq_iff_eq] at hDigit
    split at h
    · next value hValue =>
      cases h
      refine ⟨c :: cs.takeWhile Char.isDigit, cons_eq_cons_takeWhile_append .., ?_, by rw [hStep]; rfl⟩
      exact .integer hDigit (isRun_takeWhile Char.isDigit cs) hValue
    · cases h
  split at h
  · next hStart =>
    cases h
    refine ⟨c :: cs.takeWhile isIdentChar, cons_eq_cons_takeWhile_append .., ?_, by rw [hStep]; rfl⟩
    exact .ident hStart (isRun_takeWhile isIdentChar cs)
  -- what is left is punctuation, or no sign
  split at h
  · cases h
    exact ⟨_, rfl, .leftParen, rfl⟩
  · cases h
    exact ⟨_, rfl, .rightParen, rfl⟩
  · cases h
    exact ⟨_, rfl, .comma, rfl⟩
  · cases h
    exact ⟨_, rfl, .semicolon, rfl⟩
  · cases h

end

theorem scanOne_of_isSign {line : Nat} {c : Char} {chars cs rest : List Char} {kind? : Option TokenKind}
    (hText : c :: cs = chars ++ rest) (h : IsSign chars kind? rest) :
    scanOne line c cs = .ok ⟨kind?, rest, line + lineStep chars⟩ := by
  cases h with
  | blank hBlank =>
    obtain ⟨rfl, rfl⟩ := List.cons.inj hText
    rcases hBlank with rfl | rfl | rfl <;> rfl
  | @comment text _ hRun =>
    rw [List.cons_append, List.cons_append, List.cons.injEq] at hText
    obtain ⟨rfl, rfl⟩ := hText
    show Except.ok (Scanned.mk none ((text ++ rest).dropWhile isInLine) line) = _
    rw [hRun.dropWhile_eq]
    rfl
  | @header text _ hRun hName =>
    rw [List.cons_append, List.cons.injEq] at hText
    obtain ⟨rfl, rfl⟩ := hText
    have hTake : (text ++ rest).takeWhile (· != '\n') = text := hRun.takeWhile_eq
    have hDrop : (text ++ rest).dropWhile (· != '\n') = rest := hRun.dropWhile_eq
    rw [lineStep_cons_of_ne (by decide)]
    simp only [scanOne, hTake, hDrop]
    -- the name is not empty
    cases hTrim : trim text with
    | nil => exact absurd hTrim hName
    | cons => rfl
  | @string written text _ hWritten =>
    rw [List.cons_append, List.cons_append, List.cons.injEq, List.append_assoc] at hText
    obtain ⟨rfl, rfl⟩ := hText
    have hBody : stringBody (written ++ (['"'] ++ rest)) = some (text, rest) :=
      stringBody_of_isWritten hWritten rest
    have hStep : lineStep ('"' :: written ++ ['"']) = 0 := lineStep_cons_of_ne (by decide)
    rw [hStep]
    simp only [scanOne, hBody]
    rfl
  | @integer _ digits _ value hStart hRun hValue =>
    rw [List.cons_append, List.cons.injEq] at hText
    obtain ⟨rfl, rfl⟩ := hText
    have hInteger : (c.isDigit || c == '-') = true := by simpa using hStart
    have hOpening : c ∉ opening :=
      not_mem_opening (p := fun c => c.isDigit || c == '-') hInteger (by decide)
    rw [scanOne_of_not_mem_opening line c _ hOpening, if_pos hInteger, hRun.takeWhile_eq,
      hRun.dropWhile_eq, hValue, lineStep_cons_of_ne (ne_lineEnd_of_not_mem_opening hOpening)]
    rfl
  | @ident _ run _ hStart hRun =>
    rw [List.cons_append, List.cons.injEq] at hText
    obtain ⟨rfl, rfl⟩ := hText
    have hOpening : c ∉ opening := not_mem_opening hStart (by decide)
    have hInteger : ¬(c.isDigit || c == '-') = true := by simp [not_isInteger_of_isIdentStart hStart]
    rw [scanOne_of_not_mem_opening line c _ hOpening, if_neg hInteger, if_pos hStart,
      hRun.takeWhile_eq, hRun.dropWhile_eq,
      lineStep_cons_of_ne (ne_lineEnd_of_not_mem_opening hOpening)]
    rfl
  | lineEnd | leftParen | rightParen | comma | semicolon =>
    obtain ⟨rfl, rfl⟩ := List.cons.inj hText
    rfl

/-- One step reads a sign exactly when the text begins with it. -/
theorem scanOne_eq_ok_iff {line : Nat} {c : Char} {cs : List Char} {s : Scanned} :
    scanOne line c cs = .ok s ↔ ∃ chars, c :: cs = chars ++ s.rest ∧ IsSign chars s.kind? s.rest ∧
      s.line = line + lineStep chars := by
  constructor
  · intro h
    by_cases hOpening : c ∈ opening
    · exact isSign_of_scanOne_of_mem_opening hOpening h
    · exact isSign_of_scanOne_of_not_mem_opening hOpening h
  · rintro ⟨chars, hText, hSign, hLine⟩
    rw [scanOne_of_isSign hText hSign, ← hLine]

end Token

/-! ## Rows of signs -/

/-- The characters of a sign, and what token it is, if it is one. -/
structure Sign where
  chars : List Char
  kind? : Option TokenKind

/-- The text begins with the signs in a row, and goes on with `rest`. -/
inductive AreSigns : List Char → List Sign → List Char → Prop
  | nil {rest : List Char} : AreSigns rest [] rest
  | cons {chars text rest : List Char} {kind? : Option TokenKind} {signs : List Sign}
      (hFirst : IsSign chars kind? text) (hRest : AreSigns text signs rest) :
      AreSigns (chars ++ text) (⟨chars, kind?⟩ :: signs) rest

/-- No sign begins here, and the text does not end here. -/
structure NoSign (text : List Char) : Prop where
  ne_nil : text ≠ []
  not_isSign : ∀ chars kind? rest, text = chars ++ rest → ¬IsSign chars kind? rest

namespace AreSigns

variable {text middle rest : List Char} {signs before after : List Sign}

theorem append (hBefore : AreSigns text before middle) (hAfter : AreSigns middle after rest) :
    AreSigns text (before ++ after) rest := by
  induction hBefore with
  | nil => exact hAfter
  | cons hFirst _ ih => exact .cons hFirst (ih hAfter)

theorem exists_isSign {s : Sign} (h : AreSigns text signs rest) (hs : s ∈ signs) :
    ∃ rest, IsSign s.chars s.kind? rest := by
  induction h with
  | nil => cases hs
  | cons hFirst _ ih =>
    rcases List.mem_cons.mp hs with rfl | hLater
    · exact ⟨_, hFirst⟩
    · exact ih hLater

theorem append_iff :
    AreSigns text (before ++ after) rest ↔
      ∃ middle, AreSigns text before middle ∧ AreSigns middle after rest := by
  constructor
  · intro h
    induction before generalizing text with
    | nil => exact ⟨text, .nil, h⟩
    | cons sign before ih =>
      cases h with
      | cons hFirst hRest =>
        obtain ⟨middle, hBefore, hAfter⟩ := ih hRest
        exact ⟨middle, .cons hFirst hBefore, hAfter⟩
  · rintro ⟨middle, hBefore, hAfter⟩
    exact hBefore.append hAfter

end AreSigns

/-! ## Texts -/

/-- The tokens among signs, each on the line that is counted for it: the first sign stands on `line`. -/
def tokensFrom (line : Nat) : List Sign → List Token
  | [] => []
  | s :: signs =>
    (s.kind?.map fun kind => Token.mk kind line).toList ++ tokensFrom (line + lineStep s.chars) signs

/-- The line that is counted behind signs. -/
def countFrom (line : Nat) (signs : List Sign) : Nat :=
  line + (signs.map fun s => lineStep s.chars).sum

theorem kinds_tokensFrom (line : Nat) (signs : List Sign) :
    (tokensFrom line signs).map (·.kind) = signs.filterMap (·.kind?) := by
  induction signs generalizing line with
  | nil => rfl
  | cons s signs ih =>
    rw [tokensFrom, List.map_append, ih]
    cases hKind : s.kind? <;> simp [hKind]

theorem tokensFrom_append (line : Nat) (before after : List Sign) :
    tokensFrom line (before ++ after) =
      tokensFrom line before ++ tokensFrom (countFrom line before) after := by
  induction before generalizing line with
  | nil => rfl
  | cons s before ih =>
    rw [List.cons_append, tokensFrom, tokensFrom, ih, List.append_assoc]
    simp only [countFrom, List.map_cons, List.sum_cons, Nat.add_assoc]

namespace Token

theorem exists_signs_of_scanFrom {line : Nat} {cs : List Char} {tokens : List Token}
    (h : scanFrom line cs = .ok tokens) :
    ∃ signs, AreSigns cs signs [] ∧ tokens = tokensFrom line signs := by
  -- on the steps of the reader: each of them reads one sign
  fun_induction scanFrom line cs generalizing tokens with
  | case1 =>
    cases h
    exact ⟨[], .nil, rfl⟩
  | case2 => cases h
  | case3 line c cs s hOne ih =>
    obtain ⟨others, hOthers, rfl⟩ := map_eq_ok_iff.mp h
    obtain ⟨chars, hText, hSign, hLine⟩ := scanOne_eq_ok_iff.mp hOne
    obtain ⟨signs, hSigns, rfl⟩ := ih hOthers
    refine ⟨⟨chars, s.kind?⟩ :: signs, hText ▸ .cons hSign hSigns, ?_⟩
    rw [tokensFrom, hLine]

theorem scanFrom_of_areSigns {line : Nat} {cs : List Char} {signs : List Sign}
    (h : AreSigns cs signs []) : scanFrom line cs = .ok (tokensFrom line signs) := by
  induction signs generalizing line cs with
  | nil =>
    cases h
    rw [scanFrom]
    rfl
  | cons s signs ih =>
    cases h with
    | @cons chars text _ kind? _ hFirst hRest =>
    -- no sign is empty, so there is something to read
    obtain ⟨c, cs, hText⟩ : ∃ c cs, c :: cs = chars ++ text := by cases hFirst <;> exact ⟨_, _, rfl⟩
    have hOne : scanOne line c cs = .ok ⟨kind?, text, line + lineStep chars⟩ :=
      scanOne_of_isSign hText hFirst
    rw [← hText, scanFrom]
    split
    · next fault hFault =>
      rw [hOne] at hFault
      cases hFault
    · next scanned hScanned =>
      rw [hOne, Except.ok.injEq] at hScanned
      subst hScanned
      rw [ih hRest]
      rfl

/-- A text has tokens exactly when it is a row of signs, and these are those of the signs. -/
theorem scanFrom_eq_ok_iff {line : Nat} {cs : List Char} {tokens : List Token} :
    scanFrom line cs = .ok tokens ↔ ∃ signs, AreSigns cs signs [] ∧ tokens = tokensFrom line signs := by
  constructor
  · exact exists_signs_of_scanFrom
  · rintro ⟨signs, hSigns, rfl⟩
    exact scanFrom_of_areSigns hSigns

/-- A text without tokens is a row of signs up to a place where no sign begins. -/
theorem exists_signs_of_scanFrom_error {line : Nat} {cs : List Char} {f : Nat × TokenFault}
    (h : scanFrom line cs = .error f) :
    ∃ signs rest, AreSigns cs signs rest ∧ NoSign rest ∧ f.1 = countFrom line signs := by
  fun_induction scanFrom line cs with
  | case1 => cases h
  | case2 line c cs fault hOne =>
    cases h
    refine ⟨[], c :: cs, .nil, ⟨List.cons_ne_nil c cs, ?_⟩, rfl⟩
    -- any sign that began here would have been read
    intro chars kind? rest hText hSign
    rw [scanOne_of_isSign hText hSign] at hOne
    cases hOne
  | case3 line c cs s hOne ih =>
    obtain ⟨chars, hText, hSign, hLine⟩ := scanOne_eq_ok_iff.mp hOne
    rcases hOthers : scanFrom s.line s.rest with fault | others
    · rw [hOthers] at h
      obtain ⟨signs, rest, hSigns, hNo, hCount⟩ := ih (hOthers.trans h)
      refine ⟨⟨chars, s.kind?⟩ :: signs, rest, hText ▸ .cons hSign hSigns, hNo, ?_⟩
      rw [hCount, hLine]
      simp only [countFrom, List.map_cons, List.sum_cons, Nat.add_assoc]
    · rw [hOthers] at h
      cases h

end Token

end RefRules
