import RefRules.Proofs.Marks
import RefRules.Proofs.Origins
import RefRules.Proofs.PathText

/-!
# RefRules — rules as they are printed

A rule is printed as a statement: its type spec and its canonical selector between quotes, the keyword
of its verb, and its weight or its tags. Nothing is escaped, and tags stand without quotes. So the
statement is read back as the rule exactly when nothing needed to be escaped or quoted.

One direction writes down the signs of the printed text. The other one counts quotes and backslashes:
in a statement of the rule each of them stands behind a backslash of its own, and the printed text has
none to spare.

Main results:

* `Rule.areSigns_text` — the signs of a rule that is printed, if it is plain;
* `IsStatement.isPlain` — a rule whose printed text has the marks of one of its statements is plain;
* `Rule.readsBack_iff_isPlain` — the rules that are read back.
-/

namespace RefRules

open Token Text

/-! ## Plain rules -/

namespace Rule

/-- Nothing in the rule has to be escaped, and its tags are identifiers. -/
structure IsPlain (r : Rule) : Prop where
  spec : IsBare r.spec.text.toList
  tags : ∀ tag ∈ r.kind.tags, IsIdent tag
  path : IsBare r.path.text.toList

/-- Read as a rule file, the printed rule gives one rule, which says what this one says. -/
def ReadsBack (r : Rule) (source : RuleSource) (path : Path) : Prop :=
  ∃ parsed r', (RuleFile.parse source path r.text).result = .ok parsed ∧ parsed.rules = [r'] ∧
    r'.spec = r.spec ∧ r'.kind = r.kind ∧ r'.path = r.path

theorem toList_text (r : Rule) :
    r.text.toList = '"' :: r.spec.text.toList ++ '"' :: ' ' :: (r.kind.verb.keyword.toList ++
      (r.kind.argumentsText.toList ++
        ' ' :: '"' :: (r.path.text.toList ++ ['"', ';']))) := by
  have hString : ∀ s : String, toString s = s := fun _ => rfl
  simp [text, hString]

end Rule

theorem TypeSpec.text_of_parse {text : String} {spec : TypeSpec} (h : parse text = .ok spec) :
    spec.text = text := by
  unfold parse parseWith at h
  simp only at h
  split at h
  · cases h
  · split at h
    · cases h
      rfl
    · split at h
      · cases h
        rfl
      · cases h

/-! ## The signs of a rule -/

theorem isWritten_of_isBare {text : List Char} (h : IsBare text) : IsWritten text text := by
  induction text with
  | nil => exact .nil
  | cons c text ih =>
    obtain ⟨⟨hQuote, hSlash, hLine⟩, hRest⟩ := List.forall_mem_cons.mp h
    exact .plain hQuote hSlash hLine (ih hRest)

theorem isSign_bare {text : String} (h : IsBare text.toList) (rest : List Char) :
    IsSign ('"' :: text.toList ++ ['"']) (some (.string text)) rest := by
  have hString : IsSign _ _ rest := .string (isWritten_of_isBare h)
  rwa [String.ofList_toList] at hString

theorem isIdent_keyword (v : Verb) : IsIdent v.keyword := by
  cases v <;> exact isIdent_of_all rfl (by decide) (by decide)

/-- The signs of tags with a comma and a blank between them. -/
def tagSigns : List String → List Sign
  | [] => []
  | [tag] => [⟨tag.toList, some (.ident tag)⟩]
  | tag :: next :: tags =>
    ⟨tag.toList, some (.ident tag)⟩ :: ⟨[','], some .comma⟩ :: ⟨[' '], none⟩ :: tagSigns (next :: tags)

theorem areSigns_tags {tags : List String} (h : ∀ tag ∈ tags, IsIdent tag) (rest : List Char) :
    AreSigns ((", ".intercalate tags).toList ++ ')' :: rest) (tagSigns tags) (')' :: rest) := by
  rw [String.toList_intercalate]
  induction tags with
  | nil => exact .nil
  | cons tag tags ih =>
    obtain ⟨hTag, hTags⟩ := List.forall_mem_cons.mp h
    cases tags with
    | nil =>
      simp only [List.map_cons, List.map_nil, List.intercalate_singleton]
      exact .cons (isSign_ident hTag (stops_cons (by decide) rest)) .nil
    | cons next tags =>
      simp only [List.map_cons, List.intercalate_cons_cons, List.append_assoc] at ih ⊢
      refine .cons (isSign_ident hTag (stops_cons (by decide) _)) (.cons .comma ?_)
      exact .cons (.blank (.inl rfl)) (ih hTags)

theorem areValues_tags {tags : List String} (hSome : tags ≠ []) (line : Nat) :
    AreValues (tokensFrom line (tagSigns tags)) (tags.map .text) := by
  induction tags generalizing line with
  | nil => exact absurd rfl hSome
  | cons tag tags ih =>
    cases tags with
    | nil => exact .last (.ident tag)
    | cons next tags => exact .more (.ident tag) (ih (List.cons_ne_nil _ _) _)

/-- The signs of the arguments of a rule as they are printed. -/
def argumentSigns : RuleKind → List Sign
  | .owns weight _ =>
    if weight = 1 then []
    else [⟨['('], some .leftParen⟩, ⟨weight.repr.toList, some (.integer weight)⟩,
      ⟨[')'], some .rightParen⟩]
  | .tag tags _ => ⟨['('], some .leftParen⟩ :: tagSigns tags ++ [⟨[')'], some .rightParen⟩]
  | .tagIf tags _ => ⟨['('], some .leftParen⟩ :: tagSigns tags ++ [⟨[')'], some .rightParen⟩]
  | _ => []

theorem areSigns_parens {text rest : List Char} {signs : List Sign}
    (h : AreSigns (text ++ ')' :: rest) signs (')' :: rest)) :
    AreSigns ('(' :: text ++ ')' :: rest) (⟨['('], some .leftParen⟩ :: signs ++
      [⟨[')'], some .rightParen⟩]) rest :=
  .append (.cons .leftParen h) (.cons .rightParen .nil)

theorem areSigns_weight {weight : Int} (hInt : Numeral.isInt64 weight = true) (dynamic : Bool)
    (rest : List Char) :
    AreSigns ((RuleKind.owns weight dynamic).argumentsText.toList ++ rest)
      (argumentSigns (.owns weight dynamic)) rest := by
  simp only [RuleKind.argumentsText, argumentSigns]
  split
  · exact .nil
  · have hInteger : IsSign weight.repr.toList (some (.integer weight)) (')' :: rest) :=
      isSign_integer hInt (stops_cons (by decide) rest)
    have hParens := areSigns_parens (.cons hInteger .nil)
    simpa [Int.toString_eq_repr, toString] using hParens

theorem areSigns_arguments {v : Verb} {args : List Argument} {kind : RuleKind} (h : v.Takes args kind)
    (hTags : ∀ tag ∈ kind.tags, IsIdent tag) (rest : List Char) :
    AreSigns (kind.argumentsText.toList ++ rest) (argumentSigns kind) rest := by
  have hList : ∀ {tags : List String}, (∀ tag ∈ tags, IsIdent tag) →
      AreSigns (("(" ++ ", ".intercalate tags ++ ")").toList ++ rest)
        (⟨['('], some .leftParen⟩ :: tagSigns tags ++ [⟨[')'], some .rightParen⟩]) rest := by
    intro tags hTags
    have hParens := areSigns_parens (areSigns_tags hTags rest)
    simpa using hParens
  cases h with
  | owns | ownsDynamic => exact areSigns_weight (by decide) _ rest
  | ownsWeight hMin hMax | ownsDynamicWeight hMin hMax =>
    exact areSigns_weight (Numeral.isInt64_iff.mpr (by omega)) _ rest
  | weak | external | fuseWith => exact .nil
  | tag | tagDynamic | tagIfZero | tagIfNonzero => exact hList hTags

/-- Between parentheses stand the tokens of what is there. -/
theorem areArguments_parens {signs : List Sign} {args : List Argument} {line : Nat}
    (h : ∀ line, AreValues (tokensFrom line signs) args) :
    AreArguments (tokensFrom line (⟨['('], some .leftParen⟩ :: signs ++ [⟨[')'], some .rightParen⟩]))
      args := by
  rw [List.cons_append, tokensFrom, tokensFrom_append]
  exact .values (h _)

/-- The printed arguments are ones that the verb of the rule takes. -/
theorem exists_areArguments {v : Verb} {args : List Argument} {kind : RuleKind} (h : v.Takes args kind)
    (line : Nat) :
    ∃ args', AreArguments (tokensFrom line (argumentSigns kind)) args' ∧
      kind.verb.Takes args' kind := by
  have hWeight : ∀ {weight : Int} {dynamic : Bool}, weight ≠ 1 →
      AreArguments (tokensFrom line (argumentSigns (.owns weight dynamic))) [.integer weight] := by
    intro weight dynamic hOne
    have hSigns : argumentSigns (.owns weight dynamic) = ⟨['('], some .leftParen⟩ ::
        [⟨weight.repr.toList, some (.integer weight)⟩] ++ [⟨[')'], some .rightParen⟩] :=
      if_neg hOne
    rw [hSigns]
    exact areArguments_parens fun line => .last (.integer weight)
  cases h with
  | owns => exact ⟨[], .nothing, .owns⟩
  | ownsDynamic => exact ⟨[], .nothing, .ownsDynamic⟩
  | @ownsWeight weight hMin hMax =>
    -- a weight of one is left out
    by_cases hOne : weight = 1
    · subst hOne
      exact ⟨[], .nothing, .owns⟩
    · exact ⟨_, hWeight hOne, .ownsWeight hMin hMax⟩
  | @ownsDynamicWeight weight hMin hMax =>
    by_cases hOne : weight = 1
    · subst hOne
      exact ⟨[], .nothing, .ownsDynamic⟩
    · exact ⟨_, hWeight hOne, .ownsDynamicWeight hMin hMax⟩
  | weak => exact ⟨[], .nothing, .weak⟩
  | external => exact ⟨[], .nothing, .external⟩
  | fuseWith => exact ⟨[], .nothing, .fuseWith⟩
  | tag hSome hTags => exact ⟨_, areArguments_parens (areValues_tags hSome), .tag hSome hTags⟩
  | tagDynamic hSome hTags =>
    exact ⟨_, areArguments_parens (areValues_tags hSome), .tagDynamic hSome hTags⟩
  | tagIfZero hSome hTags =>
    exact ⟨_, areArguments_parens (areValues_tags hSome), .tagIfZero hSome hTags⟩
  | tagIfNonzero hSome hTags =>
    exact ⟨_, areArguments_parens (areValues_tags hSome), .tagIfNonzero hSome hTags⟩

/-- The arguments end the keyword: a parenthesis or the blank in front of the selector. -/
theorem exists_stop_of_arguments (kind : RuleKind) (rest : List Char) :
    ∃ c after, kind.argumentsText.toList ++ ' ' :: rest = c :: after ∧ isIdentChar c = false := by
  have hBlank : isIdentChar ' ' = false := by decide
  have hParen : ∀ text : String, ∃ c after, ("(" ++ text ++ ")").toList ++ ' ' :: rest = c :: after ∧
      isIdentChar c = false := by
    intro text
    refine ⟨'(', text.toList ++ ')' :: ' ' :: rest, ?_, by decide⟩
    simp
  cases kind with
  | owns weight dynamic =>
    simp only [RuleKind.argumentsText]
    split
    · exact ⟨' ', _, rfl, hBlank⟩
    · exact hParen (toString weight)
  | tag tags dynamic => exact hParen _
  | tagIf tags zero => exact hParen _
  | weak | external | fuseWith => exact ⟨' ', _, rfl, hBlank⟩

namespace Rule

variable {r : Rule} {v : Verb} {args : List Argument}

/-- The signs of a rule as it is printed. -/
def signs (r : Rule) : List Sign :=
  [⟨'"' :: r.spec.text.toList ++ ['"'], some (.string r.spec.text)⟩, ⟨[' '], none⟩,
    ⟨r.kind.verb.keyword.toList, some (.ident r.kind.verb.keyword)⟩] ++
  (argumentSigns r.kind ++
    [⟨[' '], none⟩, ⟨'"' :: r.path.text.toList ++ ['"'], some (.string r.path.text)⟩,
      ⟨[';'], some .semicolon⟩])

/-- The signs of a plain rule. -/
theorem areSigns_text (h : r.IsPlain) (hKind : v.Takes args r.kind) :
    AreSigns r.text.toList r.signs [] := by
  have hBack : AreSigns (' ' :: ('"' :: r.path.text.toList ++ ['"'] ++ [';']))
      [⟨[' '], none⟩, ⟨'"' :: r.path.text.toList ++ ['"'], some (.string r.path.text)⟩,
        ⟨[';'], some .semicolon⟩] [] :=
    .cons (.blank (.inl rfl)) (.cons (isSign_bare h.path [';']) (.cons .semicolon .nil))
  have hMiddle := areSigns_arguments hKind h.tags (' ' :: ('"' :: r.path.text.toList ++ ['"'] ++ [';']))
  obtain ⟨c, after, hStop, hChar⟩ :=
    exists_stop_of_arguments r.kind ('"' :: r.path.text.toList ++ ['"'] ++ [';'])
  have hText : r.text.toList = '"' :: r.spec.text.toList ++ ['"'] ++ ([' '] ++
      (r.kind.verb.keyword.toList ++ (c :: after))) := by
    rw [toList_text, ← hStop]
    simp
  rw [hText]
  rw [hStop] at hMiddle
  refine .append ?_ (.append hMiddle hBack)
  exact .cons (isSign_bare h.spec _) (.cons (.blank (.inl rfl))
    (.cons (isSign_ident (isIdent_keyword _) (stops_cons hChar after)) .nil))

/-- What the statement of a rule says is read from its printed text, if the rule is plain. -/
theorem textStates_text (h : r.IsPlain) {tokens : List Token} {line : Nat}
    (hStatement : IsStatement tokens (.rule r.spec r.kind r.path line)) :
    TextStates r.text [.rule r.spec r.kind r.path 1] := by
  cases hStatement with
  | @rule specText selector _ _ _ _ _ _ _ _ _ _ hSpec _ hKind hPath hSingle =>
  refine ⟨tokensFrom 1 r.signs, Token.scanFrom_eq_ok_iff.mpr ⟨_, areSigns_text h hKind, rfl⟩, ?_⟩
  -- only the line of the first token is that of the rule
  have hTokens : ∃ verbLine line pathLine endLine, tokensFrom 1 r.signs =
      ⟨.string r.spec.text, 1⟩ :: ⟨.ident r.kind.verb.keyword, verbLine⟩ ::
        (tokensFrom line (argumentSigns r.kind) ++
          [⟨.string r.path.text, pathLine⟩, ⟨.semicolon, endLine⟩]) := by
    rw [signs, tokensFrom_append, tokensFrom_append]
    exact ⟨_, _, _, _, rfl⟩
  obtain ⟨verbLine, line, pathLine, endLine, hTokens⟩ := hTokens
  -- the arguments need not be those of the statement that was read: a weight of one is left out
  obtain ⟨args, hArgs, hTakes⟩ := exists_areArguments hKind line
  have hSpec' : TypeSpec.parse r.spec.text = .ok r.spec := by
    rwa [TypeSpec.text_of_parse hSpec]
  have hSingle' : r.kind.verb.IsOfOneField → r.path.isSingleField = true := by
    rw [← hTakes.requiresSingleField_iff, hKind.requiresSingleField_iff]
    exact hSingle
  have hRule : IsStatement (tokensFrom 1 r.signs) (.rule r.spec r.kind r.path 1) := by
    rw [hTokens]
    exact .rule hSpec' hArgs hTakes (FieldPath.parse_text hPath) hSingle'
  exact .singleton hRule

theorem readsBack_of_isPlain (hRead : r.IsRead) (h : r.IsPlain) (source : RuleSource) (path : Path) :
    r.ReadsBack source path := by
  obtain ⟨tokens, hStatement⟩ := hRead.exists_isStatement
  have hParse : RuleFile.parse source path r.text = _ :=
    RuleFile.parse_of_states (textStates_text h hStatement)
  exact ⟨_, _, congrArg Outcome.result hParse, rfl, rfl, rfl, rfl⟩

end Rule

/-! ## Marks of rules -/

theorem marksIn_intercalate (tags : List String) :
    marksIn (", ".intercalate tags).toList = marksInTags tags := by
  rw [String.toList_intercalate, marksInTags]
  induction tags with
  | nil => rfl
  | cons tag tags ih =>
    cases tags with
    | nil => simp
    | cons next tags =>
      simp only [List.map_cons, List.intercalate_cons_cons, List.sum_cons] at ih ⊢
      rw [marksIn_append, marksIn_append, ih]
      rfl

theorem marksIn_argumentsText (kind : RuleKind) :
    marksIn kind.argumentsText.toList = marksInTags kind.tags := by
  have hParens : ∀ text : String, marksIn ("(" ++ text ++ ")").toList = marksIn text.toList := by
    intro text
    rw [String.toList_append, String.toList_append, marksIn_append, marksIn_append]
    exact Nat.zero_add _
  cases kind with
  | owns weight dynamic =>
    simp only [RuleKind.argumentsText]
    split
    · rfl
    · obtain ⟨c, digits, hText, hFirst, hRest, -⟩ := exists_toList_repr weight
      have hAll : ∀ d ∈ c :: digits, (d.isDigit || d == '-') = true := by
        intro d hd
        rcases List.mem_cons.mp hd with rfl | hd
        · simpa using hFirst
        · simp [hRest d hd]
      exact (hParens weight.repr).trans (hText ▸ marksIn_eq_zero hAll (by decide))
  | tag tags dynamic => exact (hParens _).trans (marksIn_intercalate tags)
  | tagIf tags zero => exact (hParens _).trans (marksIn_intercalate tags)
  | weak | external | fuseWith => rfl

theorem Rule.marksIn_text (r : Rule) :
    marksIn r.text.toList =
      4 + marksIn r.spec.text.toList + marksInTags r.kind.tags + marksIn r.path.text.toList := by
  have hText : r.text.toList = ['"'] ++ (r.spec.text.toList ++ (['"', ' '] ++
      (r.kind.verb.keyword.toList ++ (r.kind.argumentsText.toList ++ ([' ', '"'] ++
        (r.path.text.toList ++ ['"', ';'])))))) := by
    rw [toList_text]
    simp
  have hOne : marksIn ['"'] = 1 ∧ marksIn ['"', ' '] = 1 ∧ marksIn [' ', '"'] = 1 ∧
      marksIn ['"', ';'] = 1 := by
    decide
  simp only [hText, marksIn_append, marksIn_of_isIdent (isIdent_keyword _), marksIn_argumentsText, hOne]
  omega

/-- A statement of the rule takes more marks than the printed text has, unless the rule is plain. -/
theorem IsStatement.isPlain {r : Rule} {tokens : List Token} {line : Nat}
    (h : IsStatement tokens (.rule r.spec r.kind r.path line)) (hNames : HaveNames tokens)
    (hMarks : marksOf tokens ≤ marksIn r.text.toList) : r.IsPlain := by
  cases h with
  | @rule specText selector _ v tokens args _ _ line verbLine selectorLine endLine hSpec hArgs hKind
      hPath hSingle =>
  have hTokens : marksOf (⟨.string specText, line⟩ :: ⟨.ident v.keyword, verbLine⟩ ::
      (tokens ++ [⟨.string selector, selectorLine⟩, ⟨.semicolon, endLine⟩])) =
        2 + (marksIn specText.toList + escapesIn specText.toList) + (marksOf tokens +
          (2 + (marksIn selector.toList + escapesIn selector.toList))) := by
    rw [marksOf_cons, marksOf_cons, marksOf_append]
    show _ + (0 + (_ + (_ + (0 + 0)))) = _
    rw [Nat.zero_add]
    rfl
  have hText := TypeSpec.text_of_parse hSpec
  subst hText
  obtain ⟨hTags, hIdents⟩ := hArgs.marks_le hKind fun t ht => hNames t (by simp [ht])
  -- the canonical selector has no mark and no line end more than the one that was read
  have hQuote := FieldPath.count_text_le hPath (c := '"') (by decide)
  have hSlash := FieldPath.count_text_le hPath (c := '\\') (by decide)
  have hLine := FieldPath.count_text_le hPath (c := '\n') (by decide)
  rw [hTokens, r.marksIn_text] at hMarks
  unfold escapesIn marksIn at hMarks
  -- the marks on both sides are the same but for the escapes, so there are none
  refine ⟨isBare_iff.mpr ?_, hIdents ?_, isBare_iff.mpr ?_⟩
  · unfold escapesIn marksIn
    omega
  · omega
  · unfold escapesIn marksIn
    omega

namespace Rule

/-- A text that begins with a quote begins with a string. -/
theorem exists_string_of_scan {text : String} {cs : List Char} {tokens : List Token}
    (hText : text.toList = '"' :: cs) (h : scan text = .ok tokens) :
    ∃ s rest, tokens = ⟨.string s, 1⟩ :: rest := by
  obtain ⟨signs, hSigns, rfl⟩ := scanFrom_eq_ok_iff.mp h
  rw [hText] at hSigns
  generalize hQuote : '"' :: cs = chars at hSigns
  cases hSigns with
  | nil => cases hQuote
  | cons hFirst _ =>
    -- no other sign begins with a quote
    cases hFirst with
    | string => exact ⟨_, _, rfl⟩
    | blank hBlank => rcases hBlank with rfl | rfl | rfl <;> cases hQuote
    | integer hStart | ident hStart =>
      obtain ⟨rfl, -⟩ := List.cons.inj hQuote
      exact absurd hStart (by decide)
    | _ => cases hQuote

/-- The first statement of a text that begins with a quote is a rule, and the text gives it. -/
theorem exists_first_of_parse {source : RuleSource} {path : Path} {text : String} {cs : List Char}
    {parsed : ParsedRules} (hText : text.toList = '"' :: cs)
    (h : (RuleFile.parse source path text).result = .ok parsed) :
    ∃ first part rest line, Token.scan text = .ok (part ++ rest) ∧
      IsStatement part (.rule first.spec first.kind first.path line) ∧ first ∈ parsed.rules := by
  obtain ⟨statements, tokens, hScan, hTokens⟩ := RuleFile.exists_states_of_runText h
  rw [RuleFile.parse_of_states ⟨tokens, hScan, hTokens⟩] at h
  obtain ⟨s, others, rfl⟩ := exists_string_of_scan hText hScan
  obtain ⟨statement, rest, later, hNext, -, rfl⟩ := Statement.areStatements_cons_iff.mp hTokens
  obtain ⟨part, hPart, hStatement⟩ := Statement.next_eq_ok_iff.mp hNext
  rw [hPart] at hScan
  obtain ⟨entries, hReads, rfl⟩ := RuleFile.run_gives_iff.mp ⟨rfl, h⟩
  generalize Outcome.opened _ = opened at hReads
  generalize source.depth = depth at hReads
  -- headers and imports do not begin with a string
  cases hReads with
  | header => cases hStatement; cases hPart
  | importFile => cases hStatement; cases hPart
  | @rule _ _ _ spec kind fields line _ _ _ _ =>
    refine ⟨⟨spec, kind, fields, ⟨path.text, line⟩, anonymousGroup⟩, part, rest, line, hScan,
      hStatement, ?_⟩
    exact ParsedRules.mem_rules_collect_iff.mpr ⟨_, List.mem_cons_self⟩

/-- A rule whose printed text is read back as one is plain. -/
theorem isPlain_of_readsBack {r : Rule} {source : RuleSource} {path : Path}
    (h : r.ReadsBack source path) : r.IsPlain := by
  obtain ⟨parsed, r', hParse, hOne, hSpec, hKind, hPath⟩ := h
  obtain ⟨first, part, rest, line, hScan, hStatement, hFirst⟩ :=
    exists_first_of_parse r.toList_text hParse
  rw [hOne, List.mem_singleton] at hFirst
  subst hFirst
  rw [hSpec, hKind, hPath] at hStatement
  have hMarks := marksOf_le_of_scan hScan
  rw [marksOf_append] at hMarks
  refine hStatement.isPlain (fun t ht => ?_) (by omega)
  exact haveNames_of_scan hScan t (List.mem_append_left rest ht)

/-- **Printed rules.** A rule that was read is read back from its printed text exactly when it is
plain: its type spec and its canonical selector have no quote, no backslash and no line end in them,
and its tags are identifiers. The file that the text is read as makes no difference. -/
theorem readsBack_iff_isPlain {r : Rule} (hRead : r.IsRead) (source : RuleSource) (path : Path) :
    r.ReadsBack source path ↔ r.IsPlain :=
  ⟨isPlain_of_readsBack, fun h => readsBack_of_isPlain hRead h source path⟩

/-- A rule with two tags, of all elements of a field. -/
def hotRule : Rule :=
  ⟨⟨"Core:Node", some "core", .exact "Node"⟩, .tag ["hot", "x-1"] false,
    ⟨[.field "items", .elements]⟩, ⟨"a.rcl", 1⟩, "anonymous"⟩

theorem readsBack_hotRule :
    hotRule.IsRead ∧ hotRule.ReadsBack (.ofFiles []) ⟨"b.rcl"⟩ := by
  have hScan : Token.scan "\"Core:Node\" TAG(\"hot\",x-1) \" items[] \";" =
      .ok [⟨.string "Core:Node", 1⟩, ⟨.ident "TAG", 1⟩, ⟨.leftParen, 1⟩, ⟨.string "hot", 1⟩,
        ⟨.comma, 1⟩, ⟨.ident "x-1", 1⟩, ⟨.rightParen, 1⟩, ⟨.string " items[] ", 1⟩, ⟨.semicolon, 1⟩] := by
    decide +kernel
  have hArgs : AreArguments [⟨.leftParen, 1⟩, ⟨.string "hot", 1⟩, ⟨.comma, 1⟩, ⟨.ident "x-1", 1⟩,
      ⟨.rightParen, 1⟩] (["hot", "x-1"].map .text) :=
    .values (.more (.string "hot") (.last (.ident "x-1")))
  have hTags : Verb.tag.Takes (["hot", "x-1"].map .text) hotRule.kind := .tag (by simp) (by simp)
  have hPath : FieldPath.parse " items[] " = .ok hotRule.path := by decide +kernel
  have hSpec : TypeSpec.parse "Core:Node" = .ok hotRule.spec := by cbv
  have hStates : TextStates "\"Core:Node\" TAG(\"hot\",x-1) \" items[] \";"
      [.rule hotRule.spec hotRule.kind hotRule.path 1] := by
    refine ⟨_, hScan, ?_⟩
    exact .singleton (.rule hSpec hArgs hTags hPath (by simp [Verb.IsOfOneField]))
  have hRead : hotRule.IsRead := isRead_of_states hStates "a.rcl"
  have hPlain : hotRule.IsPlain := by
    refine ⟨isBare_iff.mpr (by decide +kernel), ?_, isBare_iff.mpr (by decide +kernel)⟩
    have hHot : IsIdent "hot" := isIdent_of_all rfl (by decide) (by decide)
    have hOne : IsIdent "x-1" := isIdent_of_all rfl (by decide) (by decide)
    exact List.forall_mem_cons.mpr ⟨hHot, List.forall_mem_singleton.mpr hOne⟩
  exact ⟨hRead, (readsBack_iff_isPlain hRead _ _).mpr hPlain⟩

/-- A rule for the types whose names are two letters with a dot between them. -/
def dottedRule : Rule :=
  ⟨⟨"/A\\.B/", none, .regex "A\\.B" (.seq (.look .textStart) (.seq
      (.seq (.one (· == 'A')) (.seq (.one (· == '.')) (.one (· == 'B')))) (.look .textEnd)))⟩,
    .weak, ⟨[.field "a"]⟩, ⟨"a.rcl", 1⟩, "anonymous"⟩

/-- Read from its printed text, the rule is for names with any character between the letters. -/
theorem not_readsBack_dottedRule :
    dottedRule.IsRead ∧ ¬dottedRule.ReadsBack (.ofFiles []) ⟨"b.rcl"⟩ := by
  constructor
  · have hScan : Token.scan "\"/A\\\\.B/\" WEAK \"a\";" =
        .ok [⟨.string "/A\\.B/", 1⟩, ⟨.ident "WEAK", 1⟩, ⟨.string "a", 1⟩, ⟨.semicolon, 1⟩] := by
      decide +kernel
    have hSpec : TypeSpec.parse "/A\\.B/" = .ok dottedRule.spec := by cbv
    have hPath : FieldPath.parse "a" = .ok dottedRule.path := by decide +kernel
    refine isRead_of_states ⟨_, hScan, ?_⟩ "a.rcl"
    exact .singleton (.rule hSpec .nothing .weak hPath (by simp [Verb.IsOfOneField]))
  · rintro ⟨parsed, r', hParse, hOne, hSpec, -, -⟩
    have hScan : Token.scan dottedRule.text =
        .ok [⟨.string "/A.B/", 1⟩, ⟨.ident "WEAK", 1⟩, ⟨.string "a", 1⟩, ⟨.semicolon, 1⟩] := by
      decide +kernel
    obtain ⟨first, part, rest, line, hTokens, hStatement, hFirst⟩ :=
      exists_first_of_parse dottedRule.toList_text hParse
    rw [hOne, List.mem_singleton] at hFirst
    rw [hFirst, hSpec] at hStatement
    -- the type spec of the first statement is the text of the first token
    rw [hScan, Except.ok.injEq] at hTokens
    cases hStatement with
    | rule hText =>
      obtain ⟨hSame, -⟩ := List.cons.inj hTokens
      cases hSame
      exact absurd (TypeSpec.text_of_parse hText) (by decide)

end Rule

end RefRules
