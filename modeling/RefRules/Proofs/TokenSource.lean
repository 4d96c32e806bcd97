import RefRules.Proofs.PathText
import RefRules.Proofs.Signs

/-!
# RefRules — sources that are written token by token

A token is written as a sign of its own: a header behind `#`, an integer in decimal, a string between
quotes with a backslash in front of each character that needs one. Where every token stands on a line
of its own, with any blank lines and comments around it, the signs cannot run into each other: a line
end goes on with none of them. So the source has these tokens again, exactly if each of them is one
that a text can have.

Main results:

* `IsSign.isWritable` — the tokens that a text can have;
* `TokenKind.isSign_written` — these are written as signs;
* `Token.scan_lines_iff` — a source with a token on a line has the tokens that it was written for.
-/

namespace RefRules

open Token Text

/-! ## Integers -/

theorem digitsValue_toDigits (n : Nat) : digitsValue (Nat.toDigits 10 n) = n :=
  Nat.ofDigitChars_ten_toDigits

theorem integer?_of_ne_minus {c : Char} (h : c ≠ '-') (digits : List Char) :
    integer? (c :: digits) = (some (digitsValue (c :: digits) : Int)).filter Numeral.isInt64 := by
  unfold integer?
  simp only
  congr 1
  split
  · next hNone => cases hNone
  · next hMinus => exact absurd (List.cons.inj hMinus).1 h
  · next hMinus => exact absurd (List.cons.inj hMinus).1 h
  · rfl

theorem integer?_minus {digits : List Char} (h : digits ≠ []) :
    integer? ('-' :: digits) = (some (-(digitsValue digits : Int))).filter Numeral.isInt64 := by
  obtain ⟨d, digits, rfl⟩ := List.exists_cons_of_ne_nil h
  rfl

/-- An integer is printed as a digit or a minus sign, and digits. -/
theorem exists_toList_repr (value : Int) :
    ∃ c digits, value.repr.toList = c :: digits ∧ (c.isDigit = true ∨ c = '-') ∧
      (∀ d ∈ digits, d.isDigit = true) ∧
      integer? (c :: digits) = (some value).filter Numeral.isInt64 := by
  have hDigit : ∀ {n : Nat}, ∀ d ∈ Nat.toDigits 10 n, d.isDigit = true :=
    fun d hd => Nat.isDigit_of_mem_toDigits (by decide) (by decide) hd
  cases value with
  | ofNat n =>
    obtain ⟨c, digits, hDigits⟩ := List.exists_cons_of_ne_nil (Nat.toDigits_ne_nil (n := n) (b := 10))
    have hAll : ∀ d ∈ c :: digits, d.isDigit = true := hDigits ▸ hDigit
    obtain ⟨hFirst, hRest⟩ := List.forall_mem_cons.mp hAll
    have hMinus : c ≠ '-' := by
      rintro rfl
      exact absurd hFirst (by decide)
    refine ⟨c, digits, Nat.toList_repr.trans hDigits, .inl hFirst, hRest, ?_⟩
    rw [integer?_of_ne_minus hMinus, ← hDigits, digitsValue_toDigits]
    rfl
  | negSucc n =>
    refine ⟨'-', Nat.toDigits 10 (n + 1), ?_, .inr rfl, hDigit, ?_⟩
    · show ("-" ++ (n + 1).repr).toList = _
      rw [String.toList_append, Nat.toList_repr]
      rfl
    · rw [integer?_minus Nat.toDigits_ne_nil, digitsValue_toDigits]
      rfl

/-! ## Ends of signs -/

/-- The name of an identifier. -/
def IsIdent (name : String) : Prop :=
  ∃ c cs, name.toList = c :: cs ∧ isIdentStart c = true ∧ ∀ d ∈ cs, isIdentChar d = true

theorem isIdent_of_all {name : String} {c : Char} {cs : List Char} (hName : name.toList = c :: cs)
    (hFirst : isIdentStart c = true) (hRest : cs.all isIdentChar = true) : IsIdent name :=
  ⟨c, cs, hName, hFirst, List.all_eq_true.mp hRest⟩

theorem stops_cons {p : Char → Bool} {c : Char} (h : p c = false) (rest : List Char) :
    ∀ d ∈ (c :: rest).head?, p d = false := by
  intro d hd
  cases hd
  exact h

section

variable {rest : List Char}

theorem isSign_ident {name : String} (h : IsIdent name)
    (hStop : ∀ c ∈ rest.head?, isIdentChar c = false) :
    IsSign name.toList (some (.ident name)) rest := by
  obtain ⟨first, cs, hName, hFirst, hRest⟩ := h
  have hIdent : IsSign _ _ rest := .ident hFirst ⟨hRest, hStop⟩
  rwa [← hName, String.ofList_toList] at hIdent

theorem isSign_integer {value : Int} (h : Numeral.isInt64 value = true)
    (hStop : ∀ c ∈ rest.head?, c.isDigit = false) :
    IsSign value.repr.toList (some (.integer value)) rest := by
  obtain ⟨c, digits, hText, hFirst, hRest, hValue⟩ := exists_toList_repr value
  rw [Option.filter_some_pos h] at hValue
  exact hText ▸ .integer hFirst ⟨hRest, hStop⟩ hValue

end

/-! ## Written tokens -/

/-- A character of a string, behind a backslash where it needs one. -/
def escapedChar (c : Char) : List Char :=
  if c = '"' ∨ c = '\\' ∨ c = '\n' then ['\\', c] else [c]

/-- A text as it stands between the quotes of a string. -/
def escaped (text : List Char) : List Char :=
  text.flatMap escapedChar

theorem isWritten_escaped (text : List Char) : IsWritten (escaped text) text := by
  induction text with
  | nil => exact .nil
  | cons c text ih =>
    rw [escaped, List.flatMap_cons, escapedChar]
    split
    · exact .escaped c ih
    · next hBare =>
      rw [not_or, not_or] at hBare
      exact .plain hBare.1 hBare.2.1 hBare.2.2 ih

namespace TokenKind

/-- A token as it is written. -/
def written : TokenKind → List Char
  | header name => '#' :: name.toList
  | string text => '"' :: escaped text.toList ++ ['"']
  | ident name => name.toList
  | integer value => value.repr.toList
  | leftParen => ['(']
  | rightParen => [')']
  | comma => [',']
  | semicolon => [';']

/-- The tokens that a text can have. A header has a name, without white space around it, on one line;
an integer has 64 bits; a string may have any text. -/
def IsWritable : TokenKind → Prop
  | header name => name.toList ≠ [] ∧ IsTrimmed name.toList ∧ '\n' ∉ name.toList
  | ident name => IsIdent name
  | integer value => Numeral.isInt64 value = true
  | _ => True

end TokenKind

/-- A line ends here, or the text does. -/
def EndsLine (rest : List Char) : Prop :=
  ∀ c ∈ rest.head?, c = '\n'

section

variable {rest : List Char}

/-- No run of characters goes on behind the end of a line, unless line ends are in it. -/
theorem EndsLine.stops (h : EndsLine rest) {p : Char → Bool} (hLine : p '\n' = false) :
    ∀ c ∈ rest.head?, p c = false := by
  intro c hc
  rw [h c hc]
  exact hLine

/-- What has no line end in it goes on to the end of its line. -/
theorem EndsLine.isRun (h : EndsLine rest) {text : List Char} (hText : '\n' ∉ text) :
    IsRun isInLine text rest := by
  refine ⟨fun c hc => ?_, h.stops (by decide)⟩
  have hLine : c ≠ '\n' := by
    rintro rfl
    exact hText hc
  simpa [isInLine] using hLine

/-- **Tokens as they are written** are signs where a line ends behind them. -/
theorem TokenKind.isSign_written {kind : TokenKind} (h : kind.IsWritable) (hRest : EndsLine rest) :
    IsSign kind.written (some kind) rest := by
  cases kind with
  | header name =>
    obtain ⟨hSome, hTrimmed, hLine⟩ := h
    have hName : trim name.toList ≠ [] := by rwa [hTrimmed.trim_eq]
    have hHeader : IsSign _ _ rest := .header (hRest.isRun hLine) hName
    rwa [hTrimmed.trim_eq, String.ofList_toList] at hHeader
  | string text =>
    have hString : IsSign _ _ rest := .string (isWritten_escaped text.toList)
    rwa [String.ofList_toList] at hString
  | ident name => exact isSign_ident h (hRest.stops (by decide))
  | integer value => exact isSign_integer h (hRest.stops (by decide))
  | leftParen => exact .leftParen
  | rightParen => exact .rightParen
  | comma => exact .comma
  | semicolon => exact .semicolon

/-- A sign is no token but one of these. -/
theorem IsSign.isWritable {chars : List Char} {kind : TokenKind} (h : IsSign chars (some kind) rest) :
    kind.IsWritable := by
  generalize hKind : some kind = kind? at h
  cases h with
  | blank | lineEnd | comment => cases hKind
  | @header text _ hRun hName =>
    cases hKind
    rw [TokenKind.IsWritable, String.toList_ofList]
    refine ⟨hName, isTrimmed_trim text, fun hMem => ?_⟩
    have hInLine := hRun.all _ ((trim_sublist text).subset hMem)
    revert hInLine
    decide
  | integer _ _ hValue =>
    cases hKind
    unfold integer? at hValue
    exact (Option.filter_eq_some_iff.mp hValue).2
  | ident hStart hRun =>
    cases hKind
    exact ⟨_, _, String.toList_ofList, hStart, hRun.all⟩
  | string | leftParen | rightParen | comma | semicolon =>
    cases hKind
    trivial

end

theorem isWritable_of_scan {text : String} {tokens : List Token} (h : scan text = .ok tokens) :
    ∀ kind ∈ tokens.map (·.kind), kind.IsWritable := by
  obtain ⟨signs, hSigns, rfl⟩ := Token.scanFrom_eq_ok_iff.mp h
  intro kind hKind
  rw [kinds_tokensFrom] at hKind
  obtain ⟨s, hs, hSame⟩ := List.mem_filterMap.mp hKind
  obtain ⟨rest, hSign⟩ := hSigns.exists_isSign hs
  rw [hSame] at hSign
  exact hSign.isWritable

/-! ## Lines -/

/-- A blank between signs. -/
def IsBlankSign (c : Char) : Prop :=
  c = ' ' ∨ c = '\t' ∨ c = '\r'

/-- A line without a token: blanks, and perhaps a comment behind them. -/
inductive IsFiller : List Char → Prop
  | blank {blanks : List Char} (hBlanks : ∀ c ∈ blanks, IsBlankSign c) : IsFiller blanks
  | comment {blanks text : List Char} (hBlanks : ∀ c ∈ blanks, IsBlankSign c) (hText : '\n' ∉ text) :
      IsFiller (blanks ++ '/' :: '/' :: text)

/-- Lines with one token each, as it is written, and lines without a token anywhere between them. -/
inductive AreLines : List (List Char) → List TokenKind → Prop
  | nil : AreLines [] []
  | filler {line : List Char} {lines : List (List Char)} {kinds : List TokenKind}
      (hFiller : IsFiller line) (hRest : AreLines lines kinds) : AreLines (line :: lines) kinds
  | token {lines : List (List Char)} {kinds : List TokenKind} (kind : TokenKind)
      (hRest : AreLines lines kinds) : AreLines (kind.written :: lines) (kind :: kinds)

/-- The text of lines, with a line end between any two of them. -/
def joinLines (lines : List (List Char)) : List Char :=
  ['\n'].intercalate lines

section

variable {rest : List Char}

theorem areSigns_blanks {blanks : List Char} (h : ∀ c ∈ blanks, IsBlankSign c) (rest : List Char) :
    AreSigns (blanks ++ rest) (blanks.map fun c => ⟨[c], none⟩) rest := by
  induction blanks with
  | nil => exact .nil
  | cons c blanks ih =>
    obtain ⟨hFirst, hLater⟩ := List.forall_mem_cons.mp h
    exact .cons (.blank hFirst) (ih hLater)

/-- A line without a token is a row of signs that are no tokens. -/
theorem IsFiller.exists_areSigns {line : List Char} (h : IsFiller line) (hRest : EndsLine rest) :
    ∃ signs, AreSigns (line ++ rest) signs rest ∧ signs.filterMap (·.kind?) = [] := by
  cases h with
  | blank hBlanks => exact ⟨_, areSigns_blanks hBlanks rest, by simp⟩
  | @comment blanks text hBlanks hText =>
    have hComment : AreSigns ('/' :: '/' :: text ++ rest) [⟨'/' :: '/' :: text, none⟩] rest :=
      .cons (.comment (hRest.isRun hText)) .nil
    have hSigns := (areSigns_blanks hBlanks _).append hComment
    rw [← List.append_assoc] at hSigns
    exact ⟨_, hSigns, by simp⟩

end

/-- What follows a line among others is the end of this line, and then the text of the lines behind
it. -/
theorem exists_areSigns_behind {lines : List (List Char)} {signs : List Sign}
    (h : AreSigns (joinLines lines) signs []) (line : List Char) :
    ∃ rest after, joinLines (line :: lines) = line ++ rest ∧ EndsLine rest ∧
      AreSigns rest after [] ∧ after.filterMap (·.kind?) = signs.filterMap (·.kind?) := by
  cases lines with
  | nil =>
    refine ⟨[], signs, ?_, nofun, h, rfl⟩
    rw [joinLines, List.intercalate_singleton, List.append_nil]
  | cons next lines =>
    refine ⟨'\n' :: joinLines (next :: lines), ⟨['\n'], none⟩ :: signs, ?_, ?_, .cons .lineEnd h, rfl⟩
    · rw [joinLines, List.intercalate_cons_cons, List.append_assoc]
      rfl
    · rintro c ⟨⟩
      rfl

/-- Lines are a row of signs, of which the tokens are those that the lines were written for. -/
theorem AreLines.exists_areSigns {lines : List (List Char)} {kinds : List TokenKind}
    (h : AreLines lines kinds) (hKinds : ∀ kind ∈ kinds, kind.IsWritable) :
    ∃ signs, AreSigns (joinLines lines) signs [] ∧ signs.filterMap (·.kind?) = kinds := by
  induction h with
  | nil => exact ⟨[], .nil, rfl⟩
  | @filler line lines kinds hFiller _ ih =>
    obtain ⟨signs, hSigns, rfl⟩ := ih hKinds
    obtain ⟨rest, after, hText, hEnds, hAfter, hSame⟩ := exists_areSigns_behind hSigns line
    obtain ⟨blanks, hBlanks, hNone⟩ := hFiller.exists_areSigns hEnds
    refine ⟨blanks ++ after, hText ▸ hBlanks.append hAfter, ?_⟩
    rw [List.filterMap_append, hNone, hSame, List.nil_append]
  | @token lines kinds kind _ ih =>
    obtain ⟨hKind, hLater⟩ := List.forall_mem_cons.mp hKinds
    obtain ⟨signs, hSigns, rfl⟩ := ih hLater
    obtain ⟨rest, after, hText, hEnds, hAfter, hSame⟩ := exists_areSigns_behind hSigns kind.written
    have hFirst : AreSigns (kind.written ++ rest) (⟨kind.written, some kind⟩ :: after) [] :=
      .cons (kind.isSign_written hKind hEnds) hAfter
    refine ⟨⟨kind.written, some kind⟩ :: after, hText ▸ hFirst, ?_⟩
    exact congrArg (kind :: ·) hSame

/-- **Written sources.** A source that writes each token on a line of its own, with any blank lines
and comments between them, is accepted and has exactly these tokens again, if and only if each of them
is one that a text can have. -/
theorem Token.scan_lines_iff {lines : List (List Char)} {kinds : List TokenKind}
    (h : AreLines lines kinds) :
    (∃ tokens, scan (String.ofList (joinLines lines)) = .ok tokens ∧ tokens.map (·.kind) = kinds) ↔
      ∀ kind ∈ kinds, kind.IsWritable := by
  constructor
  · rintro ⟨tokens, hScan, rfl⟩
    exact isWritable_of_scan hScan
  · intro hKinds
    obtain ⟨signs, hSigns, hSame⟩ := h.exists_areSigns hKinds
    refine ⟨tokensFrom 1 signs, ?_, ?_⟩
    · rw [scan, String.toList_ofList]
      exact scanFrom_of_areSigns hSigns
    · rw [kinds_tokensFrom, hSame]

/-- A header, a string of a quote, a line end and a backslash, the least integer and a name. -/
def sampleKinds : List TokenKind :=
  [.header "ui.a b", .string "\"\n\\", .integer (-9223372036854775808), .ident "size_1.x-y"]

/-- Lines with these tokens, a comment in front, blanks in the middle and a line end behind. -/
def sampleLines : List (List Char) :=
  [" // types".toList, TokenKind.written (.header "ui.a b"), TokenKind.written (.string "\"\n\\"),
    [' ', '\t'], TokenKind.written (.integer (-9223372036854775808)),
    TokenKind.written (.ident "size_1.x-y"), []]

theorem scan_sampleLines :
    AreLines sampleLines sampleKinds ∧
      String.ofList (joinLines sampleLines) =
        " // types\n#ui.a b\n\"\\\"\\\n\\\\\"\n \t\n-9223372036854775808\nsize_1.x-y\n" ∧
      (∀ kind ∈ sampleKinds, kind.IsWritable) ∧
      ∃ tokens, Token.scan (String.ofList (joinLines sampleLines)) = .ok tokens ∧
        tokens.map (·.kind) = sampleKinds := by
  have hLines : AreLines sampleLines sampleKinds := by
    have hComment : IsFiller " // types".toList :=
      .comment (List.forall_mem_singleton.mpr (.inl rfl)) (by decide : '\n' ∉ " types".toList)
    have hBlanks : IsFiller [' ', '\t'] :=
      .blank (List.forall_mem_cons.mpr ⟨.inl rfl, List.forall_mem_singleton.mpr (.inr (.inl rfl))⟩)
    have hNothing : IsFiller [] := .blank (List.forall_mem_nil _)
    exact .filler hComment (.token _ (.token _ (.filler hBlanks (.token _ (.token _
      (.filler hNothing .nil))))))
  have hKinds : ∀ kind ∈ sampleKinds, kind.IsWritable := by
    have hName : "ui.a b".toList ≠ [] ∧ IsTrimmed "ui.a b".toList ∧ '\n' ∉ "ui.a b".toList := by
      refine ⟨by decide, trim_eq_self_iff.mp (by decide), by decide⟩
    have hInteger : Numeral.isInt64 (-9223372036854775808) = true := by decide
    have hChars : "size_1.x-y".toList =
        's' :: ['i', 'z', 'e', '_', '1', '.', 'x', '-', 'y'] := by
      decide
    have hIdent : IsIdent "size_1.x-y" := isIdent_of_all hChars (by decide) (by decide +kernel)
    rw [sampleKinds, List.forall_mem_cons, List.forall_mem_cons, List.forall_mem_cons,
      List.forall_mem_singleton]
    exact ⟨hName, trivial, hInteger, hIdent⟩
  exact ⟨hLines, by decide +kernel, hKinds, (Token.scan_lines_iff hLines).mpr hKinds⟩

end RefRules
