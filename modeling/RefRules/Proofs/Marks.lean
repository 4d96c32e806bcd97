import RefRules.Proofs.Grammar
import RefRules.Proofs.TokenSource

/-!
# RefRules — quotes and backslashes

In a string each quote and each backslash of its text stands behind a backslash, and so does each line
end; the string itself stands between two quotes. So a text has at least the marks, quotes and
backslashes, that its tokens take. A tag takes more marks as a string than there are in it, and none
as an identifier.

Main results:

* `IsWritten.add_escapesIn_le` — the marks between the quotes of a string;
* `marksOf_le_of_scan` — a text has the marks that its tokens take;
* `AreArguments.marks_le` — the arguments of a rule take the marks in its tags, and exactly these only
  if all tags are identifiers.
-/

namespace RefRules

open Token Text

/-! ## Bare texts -/

/-- A text without quotes, backslashes and line ends, which stands between quotes as it is. -/
def IsBare (text : List Char) : Prop :=
  ∀ c ∈ text, c ≠ '"' ∧ c ≠ '\\' ∧ c ≠ '\n'

def RuleKind.tags : RuleKind → List String
  | .tag tags _ => tags
  | .tagIf tags _ => tags
  | _ => []

/-! ## Marks in texts -/

/-- The quotes and backslashes in a text. -/
def marksIn (text : List Char) : Nat :=
  text.count '"' + text.count '\\'

/-- What stands behind a backslash in a string: each of these characters, and line ends too. -/
def escapesIn (text : List Char) : Nat :=
  marksIn text + text.count '\n'

theorem marksIn_append (a b : List Char) : marksIn (a ++ b) = marksIn a + marksIn b := by
  simp only [marksIn, List.count_append]
  omega

theorem escapesIn_append (a b : List Char) : escapesIn (a ++ b) = escapesIn a + escapesIn b := by
  simp only [escapesIn, marksIn_append, List.count_append]
  omega

theorem marksIn_eq_zero {text : List Char} {p : Char → Bool} (h : ∀ c ∈ text, p c = true)
    (hMarks : (p '"' || p '\\') = false) : marksIn text = 0 := by
  rw [Bool.or_eq_false_iff] at hMarks
  rw [marksIn, Nat.add_eq_zero_iff, List.count_eq_zero, List.count_eq_zero]
  constructor <;> intro hMem
  · exact absurd (h _ hMem) (by simp [hMarks.1])
  · exact absurd (h _ hMem) (by simp [hMarks.2])

theorem isBare_iff {text : List Char} : IsBare text ↔ escapesIn text = 0 := by
  simp only [IsBare, escapesIn, marksIn, Nat.add_eq_zero_iff, List.count_eq_zero]
  constructor
  · intro h
    exact ⟨⟨fun hMem => (h _ hMem).1 rfl, fun hMem => (h _ hMem).2.1 rfl⟩,
      fun hMem => (h _ hMem).2.2 rfl⟩
  · rintro ⟨⟨hQuote, hSlash⟩, hLine⟩ c hc
    refine ⟨?_, ?_, ?_⟩ <;> rintro rfl <;> contradiction

theorem escapesIn_singleton_le (c : Char) : escapesIn [c] ≤ 1 := by
  by_cases hBare : IsBare [c]
  · rw [isBare_iff.mp hBare]
    exact Nat.zero_le 1
  · simp only [IsBare, List.forall_mem_singleton, not_and_or, not_not] at hBare
    rcases hBare with rfl | rfl | rfl <;> decide

/-- Between quotes each mark of the text stands behind a backslash. -/
theorem IsWritten.add_escapesIn_le {written text : List Char} (h : IsWritten written text) :
    marksIn text + escapesIn text ≤ marksIn written := by
  induction h with
  | nil => exact Nat.le_refl 0
  | @escaped written text c _ ih =>
    -- the backslash is one more than the character behind it needs
    have hWritten : marksIn ('\\' :: c :: written) = 1 + (marksIn [c] + marksIn written) := by
      rw [show '\\' :: c :: written = ['\\'] ++ ([c] ++ written) from rfl, marksIn_append,
        marksIn_append]
      rfl
    have hOne := escapesIn_singleton_le c
    rw [hWritten, ← List.singleton_append, marksIn_append, escapesIn_append]
    omega
  | plain hQuote hSlash hLine _ ih =>
    -- no other character is counted
    simp only [escapesIn, marksIn, List.count_cons_of_ne hQuote, List.count_cons_of_ne hSlash,
      List.count_cons_of_ne hLine] at ih ⊢
    omega

/-! ## Marks of tokens -/

/-- The marks that a token takes at least: a string has a quote at both ends. -/
def TokenKind.marks : TokenKind → Nat
  | .string text => 2 + (marksIn text.toList + escapesIn text.toList)
  | _ => 0

theorem IsSign.marks_le {chars rest : List Char} {kind? : Option TokenKind}
    (h : IsSign chars kind? rest) : kind?.elim 0 TokenKind.marks ≤ marksIn chars := by
  cases h with
  | @string written text _ hWritten =>
    have hText := hWritten.add_escapesIn_le
    have hQuotes : marksIn ('"' :: written ++ ['"']) = 1 + marksIn written + 1 := by
      rw [show '"' :: written ++ ['"'] = ['"'] ++ written ++ ['"'] from rfl, marksIn_append,
        marksIn_append]
      rfl
    rw [hQuotes]
    show 2 + (marksIn (String.ofList text).toList + escapesIn (String.ofList text).toList) ≤ _
    rw [String.toList_ofList]
    omega
  | _ => exact Nat.zero_le _

theorem AreSigns.marks_le {text rest : List Char} {signs : List Sign} (h : AreSigns text signs rest) :
    (signs.map fun s => s.kind?.elim 0 TokenKind.marks).sum ≤ marksIn text := by
  induction h with
  | nil => exact Nat.zero_le _
  | cons hFirst _ ih =>
    have hMarks := hFirst.marks_le
    rw [List.map_cons, List.sum_cons, marksIn_append]
    exact Nat.add_le_add hMarks ih

/-- The marks that tokens take at least. -/
def marksOf (tokens : List Token) : Nat :=
  (tokens.map (·.kind.marks)).sum

theorem marksOf_append (a b : List Token) : marksOf (a ++ b) = marksOf a + marksOf b := by
  rw [marksOf, List.map_append, List.sum_append]
  rfl

theorem marksOf_cons (t : Token) (tokens : List Token) :
    marksOf (t :: tokens) = t.kind.marks + marksOf tokens := rfl

theorem marksOf_tokensFrom (line : Nat) (signs : List Sign) :
    marksOf (tokensFrom line signs) = (signs.map fun s => s.kind?.elim 0 TokenKind.marks).sum := by
  induction signs generalizing line with
  | nil => rfl
  | cons s signs ih =>
    rw [tokensFrom, marksOf_append, ih, List.map_cons, List.sum_cons]
    cases s.kind? <;> rfl

/-- A text has the marks that its tokens take. -/
theorem marksOf_le_of_scan {text : String} {tokens : List Token} (h : scan text = .ok tokens) :
    marksOf tokens ≤ marksIn text.toList := by
  obtain ⟨signs, hSigns, rfl⟩ := Token.scanFrom_eq_ok_iff.mp h
  rw [marksOf_tokensFrom]
  exact hSigns.marks_le

/-- The identifiers among tokens have names of identifiers. -/
def HaveNames (tokens : List Token) : Prop :=
  ∀ t ∈ tokens, ∀ name, t.kind = .ident name → IsIdent name

theorem haveNames_of_scan {text : String} {tokens : List Token} (h : scan text = .ok tokens) :
    HaveNames tokens := by
  intro t ht name hName
  have hKind := isWritable_of_scan h t.kind (List.mem_map_of_mem ht)
  rwa [hName] at hKind

/-! ## Marks of arguments -/

theorem marksIn_of_isIdent {name : String} (h : IsIdent name) : marksIn name.toList = 0 := by
  obtain ⟨c, cs, hName, hFirst, hRest⟩ := h
  rw [hName, ← List.singleton_append, marksIn_append,
    marksIn_eq_zero (List.forall_mem_singleton.mpr hFirst) (by decide),
    marksIn_eq_zero hRest (by decide)]

/-- The marks in tags. -/
def marksInTags (tags : List String) : Nat :=
  (tags.map fun tag => marksIn tag.toList).sum

/-- A tag takes its marks and more in a string, and none as an identifier. -/
theorem IsValue.marks_le {kind : TokenKind} {tag : String} (h : IsValue kind (.text tag))
    (hName : ∀ name, kind = .ident name → IsIdent name) :
    marksIn tag.toList ≤ kind.marks ∧ (kind.marks ≤ marksIn tag.toList → IsIdent tag) := by
  cases h with
  | string =>
    -- the quotes at its ends are too many
    rw [TokenKind.marks]
    constructor
    · omega
    · intro hLe
      omega
  | ident => exact ⟨(marksIn_of_isIdent (hName tag rfl)).le, fun _ => hName tag rfl⟩

theorem AreValues.marks_le {tokens : List Token} {tags : List String}
    (h : AreValues tokens (tags.map .text)) (hNames : HaveNames tokens) :
    marksInTags tags ≤ marksOf tokens ∧
      (marksOf tokens ≤ marksInTags tags → ∀ tag ∈ tags, IsIdent tag) := by
  generalize hArgs : tags.map Argument.text = args at h
  induction h generalizing tags with
  | @last kind a line hValue =>
    obtain ⟨tag, rfl, rfl⟩ : ∃ tag, tags = [tag] ∧ a = .text tag := by
      obtain ⟨tag, others, rfl, rfl, hOthers⟩ := List.map_eq_cons_iff.mp hArgs
      obtain rfl := List.map_eq_nil_iff.mp hOthers
      exact ⟨tag, rfl, rfl⟩
    have hMarks := hValue.marks_le fun name hName => hNames _ List.mem_cons_self name hName
    simpa [marksOf, marksInTags] using hMarks
  | @more kind a tokens args line commaLine hValue _ ih =>
    obtain ⟨tag, others, rfl, rfl, hOthers⟩ := List.map_eq_cons_iff.mp hArgs
    obtain ⟨hTag, hIdent⟩ := hValue.marks_le fun name hName => hNames _ List.mem_cons_self name hName
    obtain ⟨hTags, hIdents⟩ := ih (fun t ht => hNames t (by simp [ht])) hOthers
    have hTokens : marksOf (⟨kind, line⟩ :: ⟨.comma, commaLine⟩ :: tokens) =
        kind.marks + marksOf tokens := by
      rw [marksOf_cons, marksOf_cons]
      exact congrArg (kind.marks + ·) (Nat.zero_add _)
    have hSum : marksInTags (tag :: others) = marksIn tag.toList + marksInTags others := rfl
    rw [hTokens, hSum, List.forall_mem_cons]
    refine ⟨Nat.add_le_add hTag hTags, fun hLe => ⟨hIdent ?_, hIdents ?_⟩⟩ <;> omega

theorem Verb.Takes.args_eq {v : Verb} {args : List Argument} {kind : RuleKind} (h : v.Takes args kind)
    (hTags : kind.tags ≠ []) : args = kind.tags.map .text := by
  cases h with
  | tag | tagDynamic | tagIfZero | tagIfNonzero => rfl
  | _ => exact absurd rfl hTags

/-- The arguments of a rule take the marks in its tags, and more unless all of these are
identifiers. -/
theorem AreArguments.marks_le {v : Verb} {tokens : List Token} {args : List Argument}
    {kind : RuleKind} (h : AreArguments tokens args) (hKind : v.Takes args kind)
    (hNames : HaveNames tokens) :
    marksInTags kind.tags ≤ marksOf tokens ∧
      (marksOf tokens ≤ marksInTags kind.tags → ∀ tag ∈ kind.tags, IsIdent tag) := by
  -- arguments without tags are not counted: a number has no mark
  by_cases hTags : kind.tags = []
  · rw [hTags]
    exact ⟨Nat.zero_le _, fun _ => List.forall_mem_nil _⟩
  · have hArgs := hKind.args_eq hTags
    cases h with
    | nothing => exact absurd (List.map_eq_nil_iff.mp hArgs.symm) hTags
    | empty => exact absurd (List.map_eq_nil_iff.mp hArgs.symm) hTags
    | @values tokens _ line closeLine hValues =>
      have hTokens : marksOf (⟨.leftParen, line⟩ :: tokens ++ [⟨.rightParen, closeLine⟩]) =
          marksOf tokens := by
        rw [marksOf_append, marksOf_cons]
        exact Nat.zero_add _
      rw [hTokens]
      exact (hArgs ▸ hValues).marks_le fun t ht => hNames t (by simp [ht])

end RefRules
