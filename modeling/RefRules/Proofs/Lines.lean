import RefRules.Proofs.Origins
import RefRules.Proofs.Signs

/-!
# RefRules — lines

Every token carries a line, and so does every rule and every error of a rule file. The reader counts a
line at each line end between signs, but none inside of a string, where a line end may stand behind a
backslash. So a line is the true one exactly when no string in front of it goes on over a line end;
otherwise it is too small by the number of these line ends.

Main results:

* `IsSign.count_lineEnd` — the line ends in a sign: those that are counted, and those in strings;
* `countFrom_add_lineEndsInStrings` — what the count of a row of signs misses;
* `RuleFile.line_eq_iff_keepsLines` — the lines of tokens, rules and errors.
-/

namespace RefRules

open Token Text

/-! ## Line ends in signs -/

/-- The line ends in the text of a string; no other token has one. -/
def TokenKind.lineEnds : TokenKind → Nat
  | .string text => text.toList.count '\n'
  | _ => 0

theorem IsRun.count_lineEnd {p : Char → Bool} {run rest : List Char} (h : IsRun p run rest)
    (hLine : p '\n' = false) : run.count '\n' = 0 := by
  rw [List.count_eq_zero]
  intro hMem
  simp [h.all _ hMem] at hLine

/-- A line end between quotes is one of the text. -/
theorem IsWritten.count_lineEnd {written text : List Char} (h : IsWritten written text) :
    written.count '\n' = text.count '\n' := by
  induction h with
  | nil => rfl
  | escaped c _ ih => rw [List.count_cons_of_ne (by decide), List.count_cons, List.count_cons, ih]
  | plain _ _ _ _ ih => rw [List.count_cons, List.count_cons, ih]

/-- A sign has the line end that it is, or those of its text. -/
theorem IsSign.count_lineEnd {chars rest : List Char} {kind? : Option TokenKind}
    (h : IsSign chars kind? rest) :
    chars.count '\n' = lineStep chars + kind?.elim 0 TokenKind.lineEnds := by
  -- a sign that is no string and not the line end itself has none
  cases h with
  | blank hBlank => rcases hBlank with rfl | rfl | rfl <;> rfl
  | comment hRun =>
    rw [List.count_cons_of_ne (by decide), List.count_cons_of_ne (by decide),
      hRun.count_lineEnd (by decide), lineStep_cons_of_ne (by decide)]
    rfl
  | header hRun _ =>
    rw [List.count_cons_of_ne (by decide), hRun.count_lineEnd (by decide),
      lineStep_cons_of_ne (by decide)]
    rfl
  | @string written text _ hWritten =>
    rw [List.cons_append, List.count_cons_of_ne (by decide), List.count_append,
      hWritten.count_lineEnd, lineStep_cons_of_ne (by decide)]
    simp [TokenKind.lineEnds]
  | @integer c _ _ _ hStart hRun _ =>
    have hLine : c ≠ '\n' := by
      rintro rfl
      exact absurd hStart (by decide)
    rw [List.count_cons_of_ne hLine, hRun.count_lineEnd (by decide), lineStep_cons_of_ne hLine]
    rfl
  | @ident c _ _ hStart hRun =>
    have hLine : c ≠ '\n' := by
      rintro rfl
      exact absurd hStart (by decide)
    rw [List.count_cons_of_ne hLine, hRun.count_lineEnd (by decide), lineStep_cons_of_ne hLine]
    rfl
  | lineEnd | leftParen | rightParen | comma | semicolon => rfl

/-! ## Lines behind signs -/

/-- The line on which the text goes on behind the signs: one more than the line ends in front. -/
def lineBehind (before : List Sign) : Nat :=
  1 + (before.flatMap (·.chars)).count '\n'

/-- The line ends in the strings among the signs. -/
def lineEndsInStrings (before : List Sign) : Nat :=
  (before.map fun s => s.kind?.elim 0 TokenKind.lineEnds).sum

/-- No string among the signs goes on over a line end. -/
def KeepsLines (before : List Sign) : Prop :=
  ∀ s ∈ before, ∀ text, s.kind? = some (.string text) → '\n' ∉ text.toList

theorem lineEndsInStrings_eq_zero_iff {before : List Sign} :
    lineEndsInStrings before = 0 ↔ KeepsLines before := by
  rw [lineEndsInStrings, List.sum_eq_zero_iff_forall_eq_nat, List.forall_mem_map]
  refine forall₂_congr fun s _ => ?_
  rcases s.kind? with _ | kind
  · simp
  · cases kind <;> simp [TokenKind.lineEnds, List.count_eq_zero]

/-- The count misses the line ends in strings. -/
theorem countFrom_add_lineEndsInStrings {text rest : List Char} {before : List Sign}
    (h : AreSigns text before rest) :
    countFrom 1 before + lineEndsInStrings before = lineBehind before := by
  unfold countFrom lineEndsInStrings lineBehind
  -- on the signs, each with its own line ends
  induction h with
  | nil => rfl
  | cons hFirst _ ih =>
    have hCount := hFirst.count_lineEnd
    simp only [List.map_cons, List.sum_cons, List.flatMap_cons, List.count_append] at ih ⊢
    omega

/-! ## Lines of tokens -/

/-- Behind the signs the text goes on with a token, or with what is no sign at all. -/
inductive Begins (text : List Char) (before : List Sign) : Option TokenKind → Prop
  | token {chars rest : List Char} {kind : TokenKind} (hBefore : AreSigns text before (chars ++ rest))
      (hSign : IsSign chars (some kind) rest) : Begins text before (some kind)
  | fault {rest : List Char} (hBefore : AreSigns text before rest) (hNone : NoSign rest) :
      Begins text before none

/-- The text has a token, or what is none, behind the signs; `line` is what the reader says. It is the
true line if no string in front goes on over a line end, and otherwise it misses these line ends. -/
structure IsCounted (text : String) (before : List Sign) (kind? : Option TokenKind) (line : Nat) :
    Prop where
  begins : Begins text.toList before kind?
  add_lineEndsInStrings : line + lineEndsInStrings before = lineBehind before
  eq_lineBehind_iff : line = lineBehind before ↔ KeepsLines before

theorem isCounted_countFrom {text : String} {before : List Sign} {kind? : Option TokenKind}
    (h : Begins text.toList before kind?) : IsCounted text before kind? (countFrom 1 before) := by
  have hMissed : countFrom 1 before + lineEndsInStrings before = lineBehind before := by
    cases h with
    | token hBefore _ => exact countFrom_add_lineEndsInStrings hBefore
    | fault hBefore _ => exact countFrom_add_lineEndsInStrings hBefore
  refine ⟨h, hMissed, ?_⟩
  rw [← lineEndsInStrings_eq_zero_iff]
  omega

/-- Each token of a row of signs is one of the signs, with the line that is counted up to there. -/
theorem exists_split_of_tokensFrom {line at' : Nat} {signs : List Sign} {earlier later : List Token}
    {kind : TokenKind} (h : tokensFrom line signs = earlier ++ ⟨kind, at'⟩ :: later) :
    ∃ before chars after, signs = before ++ ⟨chars, some kind⟩ :: after ∧
      before.filterMap (·.kind?) = earlier.map (·.kind) ∧ at' = countFrom line before := by
  induction signs generalizing line earlier with
  | nil => simp [tokensFrom] at h
  | cons s signs ih =>
    obtain ⟨chars, kind?⟩ := s
    rw [tokensFrom] at h
    -- the token is further behind, unless this sign is the one
    rcases kind? with _ | first
    · obtain ⟨before, chars', after, rfl, hBefore, rfl⟩ := ih h
      refine ⟨⟨chars, none⟩ :: before, chars', after, rfl, hBefore, ?_⟩
      simp only [countFrom, List.map_cons, List.sum_cons, Nat.add_assoc]
    rcases earlier with _ | ⟨t, earlier⟩
    · obtain ⟨hFirst, -⟩ := List.cons.inj h
      cases hFirst
      exact ⟨[], chars, signs, rfl, rfl, rfl⟩
    · obtain ⟨rfl, hLater⟩ := List.cons.inj h
      obtain ⟨before, chars', after, rfl, hBefore, rfl⟩ := ih hLater
      refine ⟨⟨chars, some first⟩ :: before, chars', after, rfl, by simp [hBefore], ?_⟩
      simp only [countFrom, List.map_cons, List.sum_cons, Nat.add_assoc]

namespace Token

theorem exists_isCounted_of_scan {text : String} {earlier later : List Token} {kind : TokenKind}
    {line : Nat} (h : scan text = .ok (earlier ++ ⟨kind, line⟩ :: later)) :
    ∃ before, before.filterMap (·.kind?) = earlier.map (·.kind) ∧
      IsCounted text before (some kind) line := by
  obtain ⟨signs, hSigns, hTokens⟩ := scanFrom_eq_ok_iff.mp h
  obtain ⟨before, chars, after, rfl, hBefore, rfl⟩ := exists_split_of_tokensFrom hTokens.symm
  obtain ⟨middle, hFront, hBack⟩ := AreSigns.append_iff.mp hSigns
  cases hBack with
  | cons hSign _ => exact ⟨before, hBefore, isCounted_countFrom (.token hFront hSign)⟩

theorem exists_isCounted_of_scan_error {text : String} {line : Nat} {fault : TokenFault}
    (h : scan text = .error (line, fault)) : ∃ before, IsCounted text before none line := by
  obtain ⟨before, rest, hBefore, hNone, hLine⟩ := exists_signs_of_scanFrom_error h
  obtain rfl : line = countFrom 1 before := hLine
  exact ⟨before, isCounted_countFrom (.fault hBefore hNone)⟩

/-- Whatever a text has on a line, the line was counted so. -/
theorem StandsOn.exists_isCounted {text : String} {line : Nat} {kind? : Option TokenKind}
    (h : StandsOn text line kind?) : ∃ before, IsCounted text before kind? line := by
  cases h with
  | token hScan =>
    obtain ⟨before, -, hCounted⟩ := exists_isCounted_of_scan hScan
    exact ⟨before, hCounted⟩
  | fault hScan => exact exists_isCounted_of_scan_error hScan

end Token

namespace RuleFile

/-! ## Lines of rules and errors -/

/-- **Lines.** Every token, and the place where a text has none, is said to be on its true line exactly
when no string in front of it goes on over a line end; otherwise the line is too small by the number
of these line ends. Rules name the line of their type spec in this way, in whatever file they stand,
and errors the line of the token that they are about, unless a file cannot be read. -/
theorem line_eq_iff_keepsLines (source : RuleSource) (path : Path) (text : String) :
    (∀ earlier kind line later, Token.scan text = .ok (earlier ++ ⟨kind, line⟩ :: later) →
      ∃ before, before.filterMap (·.kind?) = earlier.map (·.kind) ∧
        IsCounted text before (some kind) line) ∧
    (∀ line fault, Token.scan text = .error (line, fault) →
      ∃ before, IsCounted text before none line) ∧
    (∀ parsed, (parse source path text).result = .ok parsed → ∀ r ∈ parsed.rules,
      ∃ file text' specText before, IsTextOf source path text file text' ∧
        r.location.file = file.text ∧ TypeSpec.parse specText = .ok r.spec ∧
        IsCounted text' before (some (.string specText)) r.location.line) ∧
    (∀ e, (parse source path text).result = .error e →
      (∃ file cause, e = .unreadable file cause) ∨
      ∃ file text' line kind? before, IsTextOf source path text file text' ∧
        e.place? = some (file, line) ∧ e.IsAbout kind? ∧ IsCounted text' before kind? line) := by
  refine ⟨fun earlier kind line later hScan => exists_isCounted_of_scan hScan,
    fun line fault hScan => exists_isCounted_of_scan_error hScan, ?_, ?_⟩
  · intro parsed hParse r hr
    obtain ⟨file, text', statements, hText, hStates, hStands⟩ := exists_statement_of_parse hParse hr
    obtain ⟨specText, hOn, hSpec⟩ := hStands.exists_standsOn hStates
    obtain ⟨before, hCounted⟩ := hOn.exists_isCounted
    exact ⟨file, text', specText, before, hText, hStands.1, hSpec, hCounted⟩
  · intro e hParse
    rcases exists_failsIn_of_parse hParse with hUnreadable | ⟨file, text', hText, hFails⟩
    · exact .inl hUnreadable
    · obtain ⟨line, kind?, hPlace, hAbout, hOn⟩ := hFails.exists_standsOn
      obtain ⟨before, hCounted⟩ := hOn.exists_isCounted
      exact .inr ⟨file, text', line, kind?, before, hText, hPlace, hAbout, hCounted⟩

/-- A rule on the third line, behind a header and a comment. -/
def notedText : String :=
  "#g\n// a note\n\"T\" WEAK \"a\";"

/-- A rule with a type spec on the second line, and no verb behind it. -/
def brokenText : String :=
  "\n\"T\" ;"

theorem lines_of_notedText :
    (∃ before, before.filterMap (·.kind?) = [.header "g"] ∧
      IsCounted notedText before (some (.string "T")) 3) ∧
    (∃ before, IsCounted "\n?" before none 2) ∧
    (∃ file text' specText before, IsTextOf (.ofFiles []) ⟨"a.rcl"⟩ notedText file text' ∧
      "a.rcl" = file.text ∧ TypeSpec.parse specText = .ok ⟨"T", none, .exact "T"⟩ ∧
      IsCounted text' before (some (.string specText)) 3) ∧
    ∃ file text' line kind? before, IsTextOf (.ofFiles []) ⟨"a.rcl"⟩ brokenText file text' ∧
      some (⟨"a.rcl"⟩, 2) = some (file, line) ∧
      (RuleError.parse ⟨"a.rcl"⟩ 2 (.unexpected .semicolon)).IsAbout kind? ∧
      IsCounted text' before kind? line := by
  have hScan : Token.scan notedText = .ok ([⟨.header "g", 1⟩] ++ ⟨.string "T", 3⟩ ::
      [⟨.ident "WEAK", 3⟩, ⟨.string "a", 3⟩, ⟨.semicolon, 3⟩]) := by
    decide +kernel
  have hFault : Token.scan "\n?" = .error (2, .badCharacter '?') := by decide +kernel
  have hRules : (parse (.ofFiles []) ⟨"a.rcl"⟩ notedText).result =
      .ok [("g", [⟨⟨"T", none, .exact "T"⟩, .weak, ⟨[.field "a"]⟩, ⟨"a.rcl", 3⟩, "g"⟩])] := by
    cbv
  have hError : (parse (.ofFiles []) ⟨"a.rcl"⟩ brokenText).result =
      .error (.parse ⟨"a.rcl"⟩ 2 (.unexpected .semicolon)) := by
    cbv
  obtain ⟨hTokens, -, hLocations, -⟩ := line_eq_iff_keepsLines (.ofFiles []) ⟨"a.rcl"⟩ notedText
  obtain ⟨-, hFaults, -, -⟩ := line_eq_iff_keepsLines (.ofFiles []) ⟨"a.rcl"⟩ "\n?"
  obtain ⟨-, -, -, hErrors⟩ := line_eq_iff_keepsLines (.ofFiles []) ⟨"a.rcl"⟩ brokenText
  refine ⟨hTokens _ _ _ _ hScan, hFaults _ _ hFault, ?_, ?_⟩
  · exact hLocations _ hRules _ List.mem_cons_self
  · refine (hErrors _ hError).resolve_left ?_
    rintro ⟨file, cause, hUnreadable⟩
    cases hUnreadable

/-- A string that goes on over a line end, and an identifier. -/
def continuedText : String :=
  "\"a\\\nb\" x"

def continuedSigns : List Sign :=
  [⟨['"', 'a', '\\', '\n', 'b', '"'], some (.string "a\nb")⟩, ⟨[' '], none⟩]

/-- The identifier stands on the second line, but it is said to be on the first. -/
theorem line_of_continuedText :
    Token.scan continuedText = .ok ([⟨.string "a\nb", 1⟩] ++ ⟨.ident "x", 1⟩ :: []) ∧
      Begins continuedText.toList continuedSigns (some (.ident "x")) ∧
      continuedSigns.filterMap (·.kind?) = [.string "a\nb"] ∧ lineBehind continuedSigns = 2 := by
  have hText : continuedText.toList = ['"', 'a', '\\', '\n', 'b', '"', ' ', 'x'] := by decide +kernel
  have hWritten : IsWritten ['a', '\\', '\n', 'b'] "a\nb".toList :=
    .plain (by decide) (by decide) (by decide)
      (.escaped '\n' (.plain (by decide) (by decide) (by decide) .nil))
  refine ⟨by decide +kernel, ?_, rfl, by decide⟩
  have hIdent : IsSign ['x'] (some (.ident "x")) [] := .ident (by decide) ⟨by simp, by simp⟩
  rw [hText]
  exact .token (.cons (.string hWritten) (.cons (.blank (.inl rfl)) .nil)) hIdent

end RuleFile

end RefRules
