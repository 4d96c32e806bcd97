import RefRules.Proofs.Grouping
import RefRules.Proofs.Outcome

/-!
# RefRules — the grammar of rule files

A rule file is a row of group headers, imports and rules. Each rule is a type spec, a verb, perhaps
values between parentheses, a selector and a semicolon. `AreStatements` says which rows of tokens are
such files, and what they state; `IsRuleFile` leaves imports out.

Main results:

* `Verb.toKind_eq_ok_iff` — the values that each verb takes;
* `Statement.next_eq_ok_iff` — the reader takes exactly one statement of the grammar at a time;
* `Statement.all_eq_iff` — the rows of tokens that are read without a fault;
* `RuleFile.accepts_iff_isRuleFile` — the files without imports that are accepted, and the rules by
  groups that they give.
-/

namespace RefRules

/-! ## Values -/

/-- What verbs take: a weight of 32 bits, nothing, or tags that are not empty. -/
inductive Verb.Takes : Verb → List Argument → RuleKind → Prop
  | owns : Takes .owns [] (.owns 1 false)
  | ownsWeight {weight : Int} (hMin : -2147483648 ≤ weight) (hMax : weight ≤ 2147483647) :
      Takes .owns [.integer weight] (.owns weight false)
  | ownsDynamic : Takes .ownsDynamic [] (.owns 1 true)
  | ownsDynamicWeight {weight : Int} (hMin : -2147483648 ≤ weight) (hMax : weight ≤ 2147483647) :
      Takes .ownsDynamic [.integer weight] (.owns weight true)
  | weak : Takes .weak [] .weak
  | external : Takes .external [] .external
  | fuseWith : Takes .fuseWith [] .fuseWith
  | tag {tags : List String} (hSome : tags ≠ []) (hTags : ∀ tag ∈ tags, tag ≠ "") :
      Takes .tag (tags.map .text) (.tag tags false)
  | tagDynamic {tags : List String} (hSome : tags ≠ []) (hTags : ∀ tag ∈ tags, tag ≠ "") :
      Takes .tagDynamic (tags.map .text) (.tag tags true)
  | tagIfZero {tags : List String} (hSome : tags ≠ []) (hTags : ∀ tag ∈ tags, tag ≠ "") :
      Takes .tagIfZero (tags.map .text) (.tagIf tags true)
  | tagIfNonzero {tags : List String} (hSome : tags ≠ []) (hTags : ∀ tag ∈ tags, tag ≠ "") :
      Takes .tagIfNonzero (tags.map .text) (.tagIf tags false)

theorem Argument.tag?_eq_some_iff {a : Argument} {tag : String} :
    a.tag? = some tag ↔ a = .text tag ∧ tag ≠ "" := by
  cases a with
  | integer value => simp [tag?]
  | text value =>
    simp only [tag?, Option.ite_none_left_eq_some, Option.some.injEq, Argument.text.injEq,
      String.isEmpty_iff]
    constructor
    · rintro ⟨hSome, rfl⟩
      exact ⟨rfl, hSome⟩
    · rintro ⟨rfl, hSome⟩
      exact ⟨hSome, rfl⟩

theorem mapM_tag?_eq_some_iff {args : List Argument} {tags : List String} :
    args.mapM Argument.tag? = some tags ↔ args = tags.map .text ∧ ∀ tag ∈ tags, tag ≠ "" := by
  induction args generalizing tags with
  | nil => cases tags <;> simp
  | cons a args ih =>
    cases tags with
    | nil =>
      -- a list that begins with a value never gives no tags
      rw [List.mapM_cons]
      cases a.tag? <;> cases args.mapM Argument.tag? <;> simp
    | cons tag tags =>
      simp only [List.mapM_cons, Option.bind_eq_bind, Option.bind_eq_some_iff, Option.pure_def,
        Option.some.injEq, List.cons.injEq, List.map_cons, List.forall_mem_cons,
        Argument.tag?_eq_some_iff, ih]
      constructor
      · rintro ⟨_, ⟨rfl, hTag⟩, _, ⟨rfl, hTags⟩, rfl, rfl⟩
        exact ⟨⟨rfl, rfl⟩, hTag, hTags⟩
      · rintro ⟨⟨rfl, rfl⟩, hTag, hTags⟩
        exact ⟨_, ⟨rfl, hTag⟩, _, ⟨rfl, hTags⟩, rfl, rfl⟩

/-- Tags are read from texts alone, of which there is at least one. -/
theorem Verb.tagsOf_eq_ok_iff {v : Verb} {args : List Argument} {tags : List String} :
    v.tagsOf args = .ok tags ↔ args = tags.map .text ∧ tags ≠ [] ∧ ∀ tag ∈ tags, tag ≠ "" := by
  have hList : tagList? args = some tags ↔
      args = tags.map .text ∧ tags ≠ [] ∧ ∀ tag ∈ tags, tag ≠ "" := by
    simp only [tagList?, Option.ite_none_left_eq_some, mapM_tag?_eq_some_iff, List.isEmpty_iff]
    constructor
    · rintro ⟨hSome, rfl, hTags⟩
      exact ⟨rfl, by simpa using hSome, hTags⟩
    · rintro ⟨rfl, hSome, hTags⟩
      exact ⟨by simpa using hSome, rfl, hTags⟩
  rw [← hList, tagsOf]
  cases tagList? args <;> simp

theorem Verb.weightOf_eq_ok_iff {v : Verb} {args : List Argument} {weight : Int} :
    v.weightOf args = .ok weight ↔ args = [] ∧ weight = 1 ∨
      args = [.integer weight] ∧ -2147483648 ≤ weight ∧ weight ≤ 2147483647 := by
  unfold weightOf
  split
  · simp [eq_comm]
  · next value =>
    rw [← Numeral.isInt32_iff]
    by_cases hFits : Numeral.isInt32 value = true
    · simp only [hFits, if_true, Except.ok.injEq, reduceCtorEq, false_and, false_or,
        List.cons.injEq, Argument.integer.injEq, and_true]
      constructor
      · rintro rfl
        exact ⟨rfl, hFits⟩
      · exact fun h => h.1
    · simp only [hFits, if_false, reduceCtorEq, false_and, false_or, List.cons.injEq,
        Argument.integer.injEq, and_true, false_iff]
      rintro ⟨rfl, hWeight⟩
      exact hFits hWeight
  · next hNone hOne =>
    simp only [reduceCtorEq, false_iff]
    rintro (⟨rfl, -⟩ | ⟨rfl, -⟩)
    · exact hNone rfl
    · exact hOne _ rfl

theorem Verb.bare_eq_ok_iff {v : Verb} {kind kind' : RuleKind} {args : List Argument} :
    v.bare kind args = .ok kind' ↔ args = [] ∧ kind = kind' := by
  unfold bare
  cases args <;> simp

/-- A verb has a meaning with exactly the values that it takes. -/
theorem Verb.toKind_eq_ok_iff {v : Verb} {args : List Argument} {kind : RuleKind} :
    v.toKind args = .ok kind ↔ v.Takes args kind := by
  constructor
  · intro h
    cases v with
    | owns | ownsDynamic =>
      obtain ⟨weight, hWeight, rfl⟩ := map_eq_ok_iff.mp h
      obtain ⟨rfl, rfl⟩ | ⟨rfl, hMin, hMax⟩ := weightOf_eq_ok_iff.mp hWeight
      · constructor
      · constructor <;> assumption
    | weak | external | fuseWith =>
      obtain ⟨rfl, rfl⟩ := bare_eq_ok_iff.mp h
      constructor
    | tag | tagDynamic | tagIfZero | tagIfNonzero =>
      obtain ⟨tags, hTags, rfl⟩ := map_eq_ok_iff.mp h
      obtain ⟨rfl, hSome, hAll⟩ := tagsOf_eq_ok_iff.mp hTags
      constructor <;> assumption
  · intro h
    cases h with
    | owns | ownsDynamic => rfl
    | ownsWeight hMin hMax | ownsDynamicWeight hMin hMax =>
      exact map_eq_ok_iff.mpr ⟨_, weightOf_eq_ok_iff.mpr (.inr ⟨rfl, hMin, hMax⟩), rfl⟩
    | weak | external | fuseWith => exact bare_eq_ok_iff.mpr ⟨rfl, rfl⟩
    | tag hSome hTags | tagDynamic hSome hTags | tagIfZero hSome hTags | tagIfNonzero hSome hTags =>
      exact map_eq_ok_iff.mpr ⟨_, tagsOf_eq_ok_iff.mpr ⟨rfl, hSome, hTags⟩, rfl⟩

/-! ## Arguments -/

/-- A token that stands for a value. -/
inductive IsValue : TokenKind → Argument → Prop
  | integer (value : Int) : IsValue (.integer value) (.integer value)
  | string (text : String) : IsValue (.string text) (.text text)
  | ident (name : String) : IsValue (.ident name) (.text name)

/-- One or more values with commas between them. -/
inductive AreValues : List Token → List Argument → Prop
  | last {kind : TokenKind} {a : Argument} {line : Nat} (hValue : IsValue kind a) :
      AreValues [⟨kind, line⟩] [a]
  | more {kind : TokenKind} {a : Argument} {tokens : List Token} {args : List Argument}
      {line commaLine : Nat} (hValue : IsValue kind a) (hRest : AreValues tokens args) :
      AreValues (⟨kind, line⟩ :: ⟨.comma, commaLine⟩ :: tokens) (a :: args)

/-- What may stand between a verb and a selector: nothing, or perhaps values between parentheses. -/
inductive AreArguments : List Token → List Argument → Prop
  | nothing : AreArguments [] []
  | empty {line closeLine : Nat} :
      AreArguments [⟨.leftParen, line⟩, ⟨.rightParen, closeLine⟩] []
  | values {tokens : List Token} {args : List Argument} {line closeLine : Nat}
      (hValues : AreValues tokens args) :
      AreArguments (⟨.leftParen, line⟩ :: tokens ++ [⟨.rightParen, closeLine⟩]) args

/-- What may stand between the values that were read and the closing parenthesis: if a value is due,
more values, or nothing when none was read; otherwise nothing, or a comma and more values. -/
inductive GoesOn : Bool → List Argument → List Token → List Argument → Prop
  | none : GoesOn true [] [] []
  | due {before new : List Argument} {tokens : List Token} (hValues : AreValues tokens new) :
      GoesOn true before tokens new
  | done {before : List Argument} : GoesOn false before [] []
  | comma {before new : List Argument} {tokens : List Token} {line : Nat}
      (hValues : AreValues tokens new) : GoesOn false before (⟨.comma, line⟩ :: tokens) new

/-- A value, and what may stand behind it. -/
theorem GoesOn.value {kind : TokenKind} {a : Argument} {line : Nat} {before after new : List Argument}
    {tokens : List Token} (hValue : IsValue kind a) (h : GoesOn false after tokens new) :
    GoesOn true before (⟨kind, line⟩ :: tokens) (a :: new) := by
  cases h with
  | done => exact .due (.last hValue)
  | comma hValues => exact .due (.more hValue hValues)

namespace Statement

/-- Arguments that are read are values up to the closing parenthesis. No comma is read before a
value. -/
theorem exists_goesOn_of_arguments {line : Nat} {due : Bool} {before args : List Argument}
    {tokens rest : List Token} (hBefore : due = false → before ≠ [])
    (h : arguments line due before tokens = .ok (args, rest)) :
    ∃ read new closeLine, tokens = read ++ ⟨.rightParen, closeLine⟩ :: rest ∧
      args = before ++ new ∧ GoesOn due before read new := by
  -- one case for each branch of the reader: three kinds of values, a comma, the end, two faults
  fun_induction arguments line due before tokens with
  | case1 => cases h
  | case2 before value _ tokens ih =>
    obtain ⟨read, new, closeLine, rfl, rfl, hGoes⟩ := ih (by simp) h
    exact ⟨_ :: read, .integer value :: new, closeLine, rfl, by simp, hGoes.value (.integer value)⟩
  | case3 before text _ tokens ih =>
    obtain ⟨read, new, closeLine, rfl, rfl, hGoes⟩ := ih (by simp) h
    exact ⟨_ :: read, .text text :: new, closeLine, rfl, by simp, hGoes.value (.string text)⟩
  | case4 before name _ tokens ih =>
    obtain ⟨read, new, closeLine, rfl, rfl, hGoes⟩ := ih (by simp) h
    exact ⟨_ :: read, .text name :: new, closeLine, rfl, by simp, hGoes.value (.ident name)⟩
  | case5 before commaLine tokens ih =>
    obtain ⟨read, new, closeLine, rfl, rfl, hGoes⟩ := ih (by simp) h
    refine ⟨_ :: read, new, closeLine, rfl, rfl, ?_⟩
    cases hGoes with
    | none =>
      -- only a list without values may end where a value is due
      exact absurd rfl (hBefore rfl)
    | due hValues => exact .comma hValues
  | case6 due before closeLine tokens hClose =>
    cases h
    refine ⟨[], [], closeLine, rfl, by simp, ?_⟩
    cases due with
    | false => exact .done
    | true =>
      obtain rfl : args = [] := by simpa using hClose
      exact .none
  | case7 => cases h
  | case8 => cases h

/-- Values up to the closing parenthesis are read, when one is due. -/
theorem arguments_of_areValues {line closeLine : Nat} {new : List Argument} {tokens : List Token}
    (h : AreValues tokens new) (before : List Argument) (rest : List Token) :
    arguments line true before (tokens ++ ⟨.rightParen, closeLine⟩ :: rest) =
      .ok (before ++ new, rest) := by
  induction h generalizing before with
  | last hValue => cases hValue <;> simp [arguments]
  | more hValue _ ih => cases hValue <;> simp [arguments, ih]

end Statement

/-! ## Rules -/

theorem Verb.ofKeyword?_eq_some_iff {keyword : String} {v : Verb} :
    Verb.ofKeyword? keyword = some v ↔ keyword = v.keyword := by
  constructor
  · intro h
    have hKeyword := List.find?_some h
    exact (beq_iff_eq.mp hKeyword).symm
  · rintro rfl
    exact v.ofKeyword?_keyword

/-- The verbs that say something of a field alone. -/
def Verb.IsOfOneField (v : Verb) : Prop :=
  v = .external ∨ v = .tagIfZero ∨ v = .tagIfNonzero

theorem Verb.Takes.requiresSingleField_iff {v : Verb} {args : List Argument} {kind : RuleKind}
    (h : v.Takes args kind) : kind.requiresSingleField = true ↔ v.IsOfOneField := by
  cases h <;> simp [RuleKind.requiresSingleField, IsOfOneField]

namespace Statement

/-- A rule is built from what its parts mean. -/
theorem build_eq_ok_iff {spec : TypeSpec} {v : Verb} {args : List Argument} {text : String}
    {line : Nat} {statement : Statement} :
    build spec v args text line = .ok statement ↔
      ∃ kind path, v.Takes args kind ∧ FieldPath.parse text = .ok path ∧
        (v.IsOfOneField → path.isSingleField = true) ∧ statement = .rule spec kind path line := by
  simp only [build, bind_eq_ok_iff, mapError_eq_ok_iff, Verb.toKind_eq_ok_iff]
  constructor
  · rintro ⟨path, hPath, kind, hKind, h⟩
    split at h
    · cases h
    · next hSingle =>
      refine ⟨kind, path, hKind, hPath, ?_, (pure_eq_ok_iff.mp h).symm⟩
      intro hOne
      rw [hKind.requiresSingleField_iff.mpr hOne] at hSingle
      simpa using hSingle
  · rintro ⟨kind, path, hKind, hPath, hSingle, rfl⟩
    refine ⟨path, hPath, kind, hKind, ?_⟩
    rw [if_neg]
    · rfl
    · rw [Bool.and_eq_true, hKind.requiresSingleField_iff]
      rintro ⟨hOne, hMany⟩
      simp [hSingle hOne] at hMany

/-- A selector is a string and a semicolon. -/
theorem selector_eq_ok_iff {spec : TypeSpec} {v : Verb} {args : List Argument} {line : Nat}
    {tokens rest : List Token} {statement : Statement} :
    selector spec v args line tokens = .ok (statement, rest) ↔
      ∃ text textLine endLine, tokens = ⟨.string text, textLine⟩ :: ⟨.semicolon, endLine⟩ :: rest ∧
        build spec v args text line = .ok statement := by
  constructor
  · intro h
    unfold selector at h
    split at h
    · cases h
    · next text textLine after =>
      obtain ⟨statement, hBuild, h⟩ := bind_eq_ok_iff.mp h
      split at h
      · cases h
      · next endLine after _ =>
        cases h
        exact ⟨text, textLine, endLine, rfl, hBuild⟩
      · cases h
    · cases h
  · rintro ⟨text, textLine, endLine, rfl, hBuild⟩
    exact bind_eq_ok_iff.mpr ⟨statement, hBuild, rfl⟩

/-- Behind a verb stand arguments and a selector. -/
theorem afterVerb_eq_ok_iff {spec : TypeSpec} {v : Verb} {line : Nat} {tokens rest : List Token}
    {statement : Statement} :
    afterVerb spec v line tokens = .ok (statement, rest) ↔
      ∃ part args text textLine endLine,
        tokens = part ++ ⟨.string text, textLine⟩ :: ⟨.semicolon, endLine⟩ :: rest ∧
        AreArguments part args ∧ build spec v args text line = .ok statement := by
  constructor
  · intro h
    unfold afterVerb at h
    split at h
    · next line tokens =>
      obtain ⟨⟨args, after⟩, hArgs, h⟩ := bind_eq_ok_iff.mp h
      obtain ⟨text, textLine, endLine, rfl, hBuild⟩ := selector_eq_ok_iff.mp h
      obtain ⟨read, new, closeLine, rfl, rfl, hGoes⟩ := exists_goesOn_of_arguments (by simp) hArgs
      refine ⟨⟨.leftParen, line⟩ :: read ++ [⟨.rightParen, closeLine⟩], _, text, textLine, endLine,
        by simp, ?_, hBuild⟩
      cases hGoes with
      | none => exact .empty
      | due hValues => exact .values hValues
    · obtain ⟨text, textLine, endLine, rfl, hBuild⟩ := selector_eq_ok_iff.mp h
      exact ⟨[], [], text, textLine, endLine, rfl, .nothing, hBuild⟩
  · rintro ⟨part, args, text, textLine, endLine, rfl, hArgs, hBuild⟩
    have hSelector := selector_eq_ok_iff.mpr
      ⟨text, textLine, endLine, Eq.refl (_ :: _ :: rest), hBuild⟩
    cases hArgs with
    | nothing => exact hSelector
    | empty => exact bind_eq_ok_iff.mpr ⟨([], _), rfl, hSelector⟩
    | values hValues =>
      refine bind_eq_ok_iff.mpr ⟨(args, _), ?_, hSelector⟩
      simpa using arguments_of_areValues hValues [] (⟨.string text, textLine⟩ :: _)

end Statement

/-! ## Statements -/

/-- The tokens of a group header, an import or a rule. -/
inductive IsStatement : List Token → Statement → Prop
  | header {name : String} {line : Nat} : IsStatement [⟨.header name, line⟩] (.header name)
  | importFile {file : String} {line fileLine : Nat} :
      IsStatement [⟨.ident Statement.importKeyword, line⟩, ⟨.string file, fileLine⟩]
        (.importFile file fileLine)
  | rule {specText selector : String} {spec : TypeSpec} {v : Verb} {tokens : List Token}
      {args : List Argument} {kind : RuleKind} {path : FieldPath}
      {line verbLine selectorLine endLine : Nat}
      (hSpec : TypeSpec.parse specText = .ok spec) (hArgs : AreArguments tokens args)
      (hKind : v.Takes args kind) (hPath : FieldPath.parse selector = .ok path)
      (hSingle : v.IsOfOneField → path.isSingleField = true) :
      IsStatement
        (⟨.string specText, line⟩ :: ⟨.ident v.keyword, verbLine⟩ ::
          (tokens ++ [⟨.string selector, selectorLine⟩, ⟨.semicolon, endLine⟩]))
        (.rule spec kind path line)

/-- The tokens of statements, one behind the other. -/
inductive AreStatements : List Token → List Statement → Prop
  | nil : AreStatements [] []
  | cons {part rest : List Token} {statement : Statement} {statements : List Statement}
      (hFirst : IsStatement part statement) (hRest : AreStatements rest statements) :
      AreStatements (part ++ rest) (statement :: statements)

namespace Statement

/-- Behind the spec of a rule stand a verb, arguments and a selector. -/
theorem afterSpec_eq_ok_iff {spec : TypeSpec} {line : Nat} {tokens rest : List Token}
    {statement : Statement} :
    afterSpec spec line tokens = .ok (statement, rest) ↔
      ∃ v verbLine after, tokens = ⟨.ident (Verb.keyword v), verbLine⟩ :: after ∧
        afterVerb spec v line after = .ok (statement, rest) := by
  constructor
  · intro h
    unfold afterSpec at h
    split at h
    · cases h
    · next keyword verbLine after =>
      split at h
      · next v hVerb =>
        rw [Verb.ofKeyword?_eq_some_iff] at hVerb
        subst hVerb
        exact ⟨v, verbLine, after, rfl, h⟩
      · cases h
    · cases h
  · rintro ⟨v, verbLine, after, rfl, h⟩
    simp only [afterSpec, v.ofKeyword?_keyword]
    exact h

/-- The first statement of a row of tokens is read exactly when the row begins with one. -/
theorem next_eq_ok_iff {token : Token} {tokens rest : List Token} {statement : Statement} :
    next token tokens = .ok (statement, rest) ↔
      ∃ part, token :: tokens = part ++ rest ∧ IsStatement part statement := by
  obtain ⟨kind, line⟩ := token
  constructor
  · intro h
    unfold next at h
    split at h
    · next name hKind =>
      obtain rfl : kind = .header name := hKind
      cases h
      exact ⟨[_], rfl, .header⟩
    · next name hKind =>
      obtain rfl : kind = .ident name := hKind
      split at h
      · next hImport =>
        subst hImport
        split at h
        · cases h
        · cases h
          exact ⟨[_, _], rfl, .importFile⟩
        · cases h
      · cases h
    · next specText hKind =>
      obtain rfl : kind = .string specText := hKind
      obtain ⟨spec, hSpec, h⟩ := bind_eq_ok_iff.mp h
      rw [mapError_eq_ok_iff] at hSpec
      obtain ⟨v, verbLine, after, rfl, hVerb⟩ := afterSpec_eq_ok_iff.mp h
      obtain ⟨part, args, text, textLine, endLine, rfl, hArgs, hBuild⟩ :=
        afterVerb_eq_ok_iff.mp hVerb
      obtain ⟨ruleKind, path, hTakes, hPath, hSingle, rfl⟩ := build_eq_ok_iff.mp hBuild
      refine ⟨⟨.string specText, line⟩ :: ⟨.ident v.keyword, verbLine⟩ ::
        (part ++ [⟨.string text, textLine⟩, ⟨.semicolon, endLine⟩]), by simp, ?_⟩
      exact .rule hSpec hArgs hTakes hPath hSingle
    · cases h
  · rintro ⟨part, hTokens, hStatement⟩
    cases hStatement with
    | header =>
      cases hTokens
      rfl
    | importFile =>
      cases hTokens
      rfl
    | rule hSpec hArgs hTakes hPath hSingle =>
      simp only [List.cons_append, List.cons.injEq, Token.mk.injEq, List.append_assoc] at hTokens
      obtain ⟨⟨rfl, rfl⟩, rfl⟩ := hTokens
      refine bind_eq_ok_iff.mpr ⟨_, mapError_eq_ok_iff.mpr hSpec, ?_⟩
      refine afterSpec_eq_ok_iff.mpr ⟨_, _, _, rfl, ?_⟩
      refine afterVerb_eq_ok_iff.mpr ⟨_, _, _, _, _, rfl, hArgs, ?_⟩
      exact build_eq_ok_iff.mpr ⟨_, _, hTakes, hPath, hSingle, rfl⟩

/-- A statement uses up at least one token. -/
theorem length_le_of_next {token : Token} {tokens rest : List Token} {statement : Statement}
    (h : next token tokens = .ok (statement, rest)) : rest.length ≤ tokens.length := by
  obtain ⟨part, hTokens, hStatement⟩ := next_eq_ok_iff.mp h
  have hPart : 0 < part.length := by cases hStatement <;> simp
  have hLength := congrArg List.length hTokens
  rw [List.length_cons, List.length_append] at hLength
  omega

theorem areStatements_nil_iff {statements : List Statement} :
    AreStatements [] statements ↔ statements = [] := by
  constructor
  · intro h
    generalize hTokens : [] = tokens at h
    cases h with
    | nil => rfl
    | cons hFirst _ =>
      obtain ⟨rfl, -⟩ := List.append_eq_nil_iff.mp hTokens.symm
      cases hFirst
  · rintro rfl
    exact .nil

/-- Statements are the first one that is read, and those of the rest. -/
theorem areStatements_cons_iff {token : Token} {tokens : List Token} {statements : List Statement} :
    AreStatements (token :: tokens) statements ↔ ∃ statement rest others,
      next token tokens = .ok (statement, rest) ∧ AreStatements rest others ∧
        statements = statement :: others := by
  constructor
  · intro h
    generalize hTokens : token :: tokens = row at h
    cases h with
    | nil => cases hTokens
    | cons hFirst hRest => exact ⟨_, _, _, next_eq_ok_iff.mpr ⟨_, hTokens, hFirst⟩, hRest, rfl⟩
  · rintro ⟨statement, rest, others, hNext, hRest, rfl⟩
    obtain ⟨part, hTokens, hFirst⟩ := next_eq_ok_iff.mp hNext
    rw [hTokens]
    exact .cons hFirst hRest

/-- With fuel for all its tokens, a row is read without a fault exactly when it is one of
statements. -/
theorem upTo_eq_iff {fuel : Nat} {tokens : List Token} {statements : List Statement}
    (hFuel : tokens.length ≤ fuel) :
    upTo fuel tokens = (statements, none) ↔ AreStatements tokens statements := by
  induction fuel generalizing tokens statements with
  | zero =>
    obtain rfl : tokens = [] := List.length_eq_zero_iff.mp (Nat.le_zero.mp hFuel)
    rw [areStatements_nil_iff, upTo, Prod.mk.injEq, eq_comm, and_iff_left rfl]
  | succ fuel ih =>
    cases tokens with
    | nil =>
      rw [areStatements_nil_iff, upTo, Prod.mk.injEq, eq_comm, and_iff_left rfl]
      exact Nat.succ_ne_zero fuel
    | cons token tokens =>
      rw [areStatements_cons_iff, upTo]
      cases hNext : next token tokens with
      | error fault => simp
      | ok read =>
        obtain ⟨statement, rest⟩ := read
        have hRest : rest.length ≤ fuel :=
          (length_le_of_next hNext).trans (Nat.le_of_succ_le_succ hFuel)
        -- what follows the first statement is read with the fuel that is left
        constructor
        · intro h
          obtain ⟨hStatements, hFault⟩ := Prod.mk.inj h
          exact ⟨statement, rest, _, rfl, (ih hRest).mp (Prod.ext rfl hFault), hStatements.symm⟩
        · rintro ⟨_, _, others, ⟨⟩, hOthers, rfl⟩
          simp [(ih hRest).mpr hOthers]

/-- The rows of tokens that are read without a fault are those of statements. -/
theorem all_eq_iff {tokens : List Token} {statements : List Statement} :
    all tokens = (statements, none) ↔ AreStatements tokens statements :=
  upTo_eq_iff (Nat.le_refl _)

end Statement

/-! ## Files without imports -/

def Statement.isImport : Statement → Bool
  | .importFile _ _ => true
  | _ => false

/-- The tokens of group headers and rules, one behind the other. -/
structure IsRuleFile (tokens : List Token) (statements : List Statement) : Prop where
  areStatements : AreStatements tokens statements
  noImport : ∀ statement ∈ statements, statement.isImport = false

/-- No string stands behind the keyword of an import. -/
def HasNoImport (tokens : List Token) : Prop :=
  tokens.IsChain fun token following =>
    ¬(token.kind = .ident Statement.importKeyword ∧ ∃ file, following.kind = .string file)

theorem AreStatements.isRuleFile {tokens : List Token} {statements : List Statement}
    (h : AreStatements tokens statements) (hNone : HasNoImport tokens) :
    IsRuleFile tokens statements := by
  refine ⟨h, ?_⟩
  induction h with
  | nil => simp
  | cons hFirst hRest ih =>
    obtain ⟨hPart, hAfter, -⟩ := List.isChain_append.mp hNone
    refine List.forall_mem_cons.mpr ⟨?_, ih hAfter⟩
    cases hFirst with
    | header => rfl
    | importFile =>
      rw [List.isChain_cons_cons] at hPart
      exact absurd ⟨rfl, _, rfl⟩ hPart.1
    | rule => rfl

namespace RuleFile

/-- What the headers and rules of a file do, from the group in force. -/
def entries (file : String) (outer : Option String) : String → List Statement → List GroupEntry
  | _, [] => []
  | _, .header name :: statements =>
    (composeGroup outer name, none) :: entries file outer (composeGroup outer name) statements
  | group, .rule spec kind path line :: statements =>
    (group, some ⟨spec, kind, path, ⟨file, line⟩, group⟩) :: entries file outer group statements
  | group, .importFile _ _ :: statements => entries file outer group statements

/-- The rules by groups that the headers and rules of a file give. -/
def rulesOf (path : Path) (outer : Option String) (statements : List Statement) : ParsedRules :=
  .grouped (entries path.text outer (outer.getD anonymousGroup) statements)

variable {importer : Path → Option String → ParsedRules → Outcome} {stack : List Path} {path : Path}
  {outer : Option String}

/-- Where a fault comes last there are no rules. -/
theorem runStatements_fault_ne_ok (fault : Fault) (statements : List Statement) (group : String)
    (rules parsed : ParsedRules) :
    (runStatements importer stack path outer (some fault) statements group rules).result ≠
      .ok parsed := by
  induction statements generalizing group rules with
  | nil => exact fun h => by cases h
  | cons statement statements ih =>
    cases statement with
    | header name => exact ih _ _
    | rule spec kind fields line => exact ih _ _
    | importFile file line =>
      -- the import may fail, and if it does not, the fault comes later
      unfold runStatements
      simp only
      split
      · exact fun h => by cases h
      · split
        · exact fun h => by cases h
        · exact ih _ _

/-- Headers and rules are carried out in turn. -/
theorem runStatements_of_noImport {statements : List Statement}
    (hNone : ∀ statement ∈ statements, statement.isImport = false) (group : String)
    (rules : ParsedRules) :
    runStatements importer stack path outer none statements group rules =
      ⟨[], .ok (rules.collect (entries path.text outer group statements))⟩ := by
  induction statements generalizing group rules with
  | nil => rfl
  | cons statement statements ih =>
    obtain ⟨hFirst, hRest⟩ := List.forall_mem_cons.mp hNone
    cases statement with
    | header name => exact ih hRest _ _
    | rule spec kind fields line => exact ih hRest _ _
    | importFile file line => cases hFirst

/-- A row of tokens without imports gives rules exactly when it consists of headers and rules. -/
theorem runTokens_eq_ok_iff_isRuleFile {tokens : List Token} (hNone : HasNoImport tokens)
    (parsed : ParsedRules) :
    (runTokens importer stack path outer tokens []).result = .ok parsed ↔
      ∃ statements, IsRuleFile tokens statements ∧ parsed = rulesOf path outer statements := by
  unfold runTokens
  -- the reader either takes all tokens as statements or ends with a fault
  rcases hAll : Statement.all tokens with ⟨statements, _ | fault⟩
  · have hFile := (Statement.all_eq_iff.mp hAll).isRuleFile hNone
    simp only [runStatements_of_noImport hFile.noImport, ParsedRules.collect_nil_eq_grouped,
      Except.ok.injEq]
    constructor
    · rintro rfl
      exact ⟨statements, hFile, rfl⟩
    · -- there is one way to read the tokens
      rintro ⟨others, hOthers, rfl⟩
      obtain ⟨rfl, -⟩ := Prod.mk.inj (hAll.symm.trans (Statement.all_eq_iff.mpr hOthers.areStatements))
      rfl
  · simp only [runStatements_fault_ne_ok, false_iff]
    rintro ⟨others, hOthers, -⟩
    cases hAll.symm.trans (Statement.all_eq_iff.mpr hOthers.areStatements)

/-- **Rule files without imports.** A row of tokens in which no string stands behind `IMPORT` gives
rules exactly when it consists of group headers and rules, whatever file and outer group it is read
for. The rules stand by groups, in the order in which headers and rules first name these, each with
its rules in the order of the file. The texts with these tokens are accepted alike. -/
theorem accepts_iff_isRuleFile {tokens : List Token} (hNone : HasNoImport tokens) :
    (∀ importer stack path outer parsed,
      (runTokens importer stack path outer tokens []).result = .ok parsed ↔
        ∃ statements, IsRuleFile tokens statements ∧ parsed = rulesOf path outer statements) ∧
    (∀ source depth stack path text outer parsed, Token.scan text = .ok tokens →
      ((parseText source depth stack path text outer []).result = .ok parsed ↔
        ∃ statements, IsRuleFile tokens statements ∧ parsed = rulesOf path outer statements)) := by
  refine ⟨fun importer stack path outer parsed => runTokens_eq_ok_iff_isRuleFile hNone parsed, ?_⟩
  intro source depth stack path text outer parsed hScan
  rw [parseText, runText, hScan]
  exact runTokens_eq_ok_iff_isRuleFile hNone parsed

/-- A header, and a rule with two tags. -/
def hotNodeText : String :=
  "#g\n\"Node\" TAG(hot, \"next one\") \"a.b\";"

def hotNodeTokens : List Token :=
  [⟨.header "g", 1⟩, ⟨.string "Node", 2⟩, ⟨.ident "TAG", 2⟩, ⟨.leftParen, 2⟩, ⟨.ident "hot", 2⟩,
    ⟨.comma, 2⟩, ⟨.string "next one", 2⟩, ⟨.rightParen, 2⟩, ⟨.string "a.b", 2⟩, ⟨.semicolon, 2⟩]

theorem accepts_hotNode :
    HasNoImport hotNodeTokens ∧ Token.scan hotNodeText = .ok hotNodeTokens ∧
      (parseText ⟨fun _ => .error .absent, 0⟩ 0 [] ⟨"a.rcl"⟩ hotNodeText none []).result =
        .ok [("g", [⟨⟨"Node", none, .exact "Node"⟩, .tag ["hot", "next one"] false,
          ⟨[.field "a", .field "b"]⟩, ⟨"a.rcl", 2⟩, "g"⟩])] := by
  have hNone : HasNoImport hotNodeTokens := by simp [HasNoImport, hotNodeTokens]
  have hScan : Token.scan hotNodeText = .ok hotNodeTokens := by decide +kernel
  have hArgs : AreArguments
      [⟨.leftParen, 2⟩, ⟨.ident "hot", 2⟩, ⟨.comma, 2⟩, ⟨.string "next one", 2⟩, ⟨.rightParen, 2⟩]
      [.text "hot", .text "next one"] :=
    .values (.more (.ident "hot") (.last (.string "next one")))
  have hTags : Verb.tag.Takes (["hot", "next one"].map .text) (.tag ["hot", "next one"] false) :=
    .tag (by simp) (by simp)
  have hRule : IsStatement (hotNodeTokens.drop 1)
      (.rule ⟨"Node", none, .exact "Node"⟩ (.tag ["hot", "next one"] false)
        ⟨[.field "a", .field "b"]⟩ 2) := by
    have hSpec : TypeSpec.parse "Node" = .ok ⟨"Node", none, .exact "Node"⟩ := rfl
    have hPath : FieldPath.parse "a.b" = .ok ⟨[.field "a", .field "b"]⟩ := by decide +kernel
    exact .rule hSpec hArgs hTags hPath (by simp [Verb.IsOfOneField])
  have hFile : AreStatements hotNodeTokens _ :=
    .cons (show IsStatement [⟨.header "g", 1⟩] (.header "g") from .header) (.cons hRule .nil)
  refine ⟨hNone, hScan, ?_⟩
  exact ((accepts_iff_isRuleFile hNone).2 _ _ _ _ _ _ _ hScan).mpr ⟨_, hFile.isRuleFile hNone, rfl⟩
end RuleFile

end RefRules
