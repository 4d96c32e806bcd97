import RefRules.Proofs.Imports

/-!
# RefRules — where rules and errors come from

A rule that is read stands in some file as a statement: in the text that is read, or in a file that is
imported on the way. An error comes from such a file too, unless a file cannot be read at all. Both
are traced back to the tokens of the file.

Main results:

* `RuleFile.exists_statement_of_parse` — every rule is a statement of a file, at its own location;
* `RuleFile.exists_failsIn_of_parse` — every error is that of an unreadable file, or one in a file;
* `RuleFile.FailsIn.exists_standsOn` — an error in a file names the line of a token, or of what is none.
-/

namespace RefRules

/-- All rules, group by group. -/
def ParsedRules.rules (p : ParsedRules) : List Rule :=
  p.flatMap (·.2)

theorem ParsedRules.mem_rules_collect_iff {entries : List GroupEntry} {r : Rule} :
    r ∈ rules (.collect [] entries) ↔ ∃ group, (group, some r) ∈ entries := by
  rw [collect_nil_eq_grouped, rules, grouped, List.flatMap_map, List.mem_flatMap]
  constructor
  · rintro ⟨group, -, hRule⟩
    obtain ⟨⟨group', rule?⟩, hEntry, hPut⟩ := List.mem_filterMap.mp hRule
    split at hPut
    · exact ⟨group', hPut ▸ hEntry⟩
    · cases hPut
  · rintro ⟨group, hEntry⟩
    refine ⟨group, List.mem_eraseDups.mpr (List.mem_map_of_mem hEntry), ?_⟩
    exact List.mem_filterMap.mpr ⟨_, hEntry, if_pos rfl⟩

/-! ## Statements among tokens -/

theorem AreStatements.singleton {tokens : List Token} {statement : Statement}
    (h : IsStatement tokens statement) : AreStatements tokens [statement] := by
  have hCons : AreStatements (tokens ++ []) [statement] := .cons h .nil
  rwa [List.append_nil] at hCons

/-- Each statement has its own tokens among those of all. -/
theorem AreStatements.exists_part {tokens : List Token} {statements : List Statement}
    (h : AreStatements tokens statements) {statement : Statement} (hMem : statement ∈ statements) :
    ∃ before part after, tokens = before ++ part ++ after ∧ IsStatement part statement := by
  induction h with
  | nil => cases hMem
  | @cons first rest _ _ hFirst _ ih =>
    rcases List.mem_cons.mp hMem with rfl | hMem
    · exact ⟨[], first, rest, rfl, hFirst⟩
    · obtain ⟨before, part, after, rfl, hPart⟩ := ih hMem
      exact ⟨first ++ before, part, after, by simp only [List.append_assoc], hPart⟩

/-- A rule stands on the line of its type spec. -/
theorem AreStatements.exists_spec {tokens : List Token} {statements : List Statement}
    (h : AreStatements tokens statements) {spec : TypeSpec} {kind : RuleKind} {path : FieldPath}
    {line : Nat} (hMem : .rule spec kind path line ∈ statements) :
    ∃ before specText after, tokens = before ++ ⟨.string specText, line⟩ :: after ∧
      TypeSpec.parse specText = .ok spec := by
  obtain ⟨before, part, after, rfl, hPart⟩ := h.exists_part hMem
  cases hPart with
  | rule hSpec _ _ _ _ =>
    rw [List.append_assoc, List.cons_append]
    exact ⟨before, _, _, rfl, hSpec⟩

/-- An import stands on the line of its file name. -/
theorem AreStatements.exists_fileName {tokens : List Token} {statements : List Statement}
    (h : AreStatements tokens statements) {file : String} {line : Nat}
    (hMem : .importFile file line ∈ statements) :
    ∃ before after, tokens = before ++ ⟨.string file, line⟩ :: after := by
  obtain ⟨before, part, after, rfl, hPart⟩ := h.exists_part hMem
  cases hPart with
  | @importFile _ line _ =>
    refine ⟨before ++ [⟨.ident Statement.importKeyword, line⟩], after, ?_⟩
    rw [List.append_assoc, List.append_assoc]
    rfl

namespace Statement

/-- Up to the first fault the tokens are those of statements. -/
theorem exists_areStatements_of_upTo (fuel : Nat) (tokens : List Token) :
    ∃ done rest, tokens = done ++ rest ∧ AreStatements done (upTo fuel tokens).1 ∧
      ∀ fault ∈ (upTo fuel tokens).2, ∃ first later, rest = first :: later ∧
        next first later = .error fault := by
  induction fuel generalizing tokens with
  | zero => exact ⟨[], tokens, rfl, .nil, by simp [upTo]⟩
  | succ fuel ih =>
    cases tokens with
    | nil => exact ⟨[], [], rfl, .nil, by simp [upTo]⟩
    | cons token tokens =>
      rw [upTo]
      rcases hNext : next token tokens with fault | ⟨statement, following⟩
      · -- here is the first fault
        refine ⟨[], token :: tokens, rfl, .nil, ?_⟩
        intro other hOther
        cases hOther
        exact ⟨token, tokens, rfl, hNext⟩
      · obtain ⟨part, hTokens, hPart⟩ := next_eq_ok_iff.mp hNext
        obtain ⟨done, rest, rfl, hDone, hFault⟩ := ih following
        exact ⟨part ++ done, rest, by rw [hTokens, List.append_assoc], .cons hPart hDone, hFault⟩

end Statement

/-! ## Faults -/

/-- Faults of a rule whose type spec has been read. -/
inductive StatementFault.IsOfRule : StatementFault → Prop
  | path {fault : PathFault} : IsOfRule (.path fault)
  | argument {fault : ArgumentFault} : IsOfRule (.argument fault)
  | singleField {v : Verb} {path : String} : IsOfRule (.singleField v path)
  | unterminatedRule : IsOfRule .unterminatedRule
  | missingSemicolon : IsOfRule .missingSemicolon

/-- The token whose line a fault names: the one that should not be there, or the type spec of the
rule. -/
inductive StatementFault.IsAbout : StatementFault → TokenKind → Prop
  | unexpected {kind : TokenKind} : IsAbout (.unexpected kind) kind
  | unknownKeyword {name : String} : IsAbout (.unknownKeyword name) (.ident name)
  | importWithoutName : IsAbout .importWithoutName (.ident Statement.importKeyword)
  | spec {text : String} {fault : SpecFault} (hSpec : TypeSpec.parse text = .error fault) :
      IsAbout (.spec fault) (.string text)
  | rule {fault : StatementFault} {text : String} {spec : TypeSpec} (hFault : fault.IsOfRule)
      (hSpec : TypeSpec.parse text = .ok spec) : IsAbout fault (.string text)

namespace Statement

/-- A fault in what follows the type spec on `line`: one of the rule, or of a token there. -/
def IsFaultBehind (line : Nat) (tokens : List Token) (f : Fault) : Prop :=
  f.1 = line ∧ f.2.IsOfRule ∨ ∃ t ∈ tokens, f.1 = t.line ∧ f.2.IsAbout t.kind

theorem IsFaultBehind.mono {line : Nat} {tokens tokens' : List Token} {f : Fault}
    (h : IsFaultBehind line tokens f) (hMem : ∀ t ∈ tokens, t ∈ tokens') :
    IsFaultBehind line tokens' f :=
  h.imp_right fun ⟨t, ht, hAbout⟩ => ⟨t, hMem t ht, hAbout⟩

theorem isFaultBehind_unexpected {line : Nat} {t : Token} {tokens : List Token} :
    IsFaultBehind line (t :: tokens) (t.line, .unexpected t.kind) :=
  .inr ⟨t, List.mem_cons_self, rfl, .unexpected⟩

theorem isFaultBehind_of_arguments {line : Nat} {due : Bool} {args : List Argument}
    {tokens : List Token} {f : Fault} (h : arguments line due args tokens = .error f) :
    IsFaultBehind line tokens f := by
  -- the reader stops at the end of the tokens, or at the first one that is out of place
  fun_induction arguments line due args tokens with
  | case1 =>
    cases h
    exact .inl ⟨rfl, .unterminatedRule⟩
  | case2 _ _ _ _ ih | case3 _ _ _ _ ih | case4 _ _ _ _ ih | case5 _ _ _ ih =>
    exact (ih h).mono fun t ht => List.mem_cons_of_mem _ ht
  | case6 => cases h
  | case7 =>
    cases h
    exact isFaultBehind_unexpected (t := ⟨.rightParen, _⟩)
  | case8 _ _ kind at' =>
    cases h
    exact isFaultBehind_unexpected (t := ⟨kind, at'⟩)

theorem isOfRule_of_build {spec : TypeSpec} {v : Verb} {args : List Argument} {text : String}
    {line : Nat} {f : Fault} (h : build spec v args text line = .error f) :
    f.1 = line ∧ f.2.IsOfRule := by
  rcases bind_eq_error_iff.mp h with hPath | ⟨path, -, h⟩
  · obtain ⟨fault, -, rfl⟩ := mapError_eq_error_iff.mp hPath
    exact ⟨rfl, .path⟩
  rcases bind_eq_error_iff.mp h with hKind | ⟨kind, -, h⟩
  · obtain ⟨fault, -, rfl⟩ := mapError_eq_error_iff.mp hKind
    exact ⟨rfl, .argument⟩
  split at h
  · cases h
    exact ⟨rfl, .singleField⟩
  · cases h

theorem isFaultBehind_of_selector {spec : TypeSpec} {v : Verb} {args : List Argument} {line : Nat}
    {tokens : List Token} {f : Fault} (h : selector spec v args line tokens = .error f) :
    IsFaultBehind line tokens f := by
  unfold selector at h
  split at h
  · cases h
    exact .inl ⟨rfl, .unterminatedRule⟩
  · next text textLine after =>
    rcases bind_eq_error_iff.mp h with hBuild | ⟨statement, -, h⟩
    · exact .inl (isOfRule_of_build hBuild)
    split at h
    · cases h
      exact .inl ⟨rfl, .missingSemicolon⟩
    · cases h
    · next kind at' rest _ _ =>
      cases h
      have hNext : IsFaultBehind line (⟨kind, at'⟩ :: rest) (at', .unexpected kind) :=
        isFaultBehind_unexpected
      exact hNext.mono fun t ht => List.mem_cons_of_mem _ ht
  · next kind at' rest _ =>
    cases h
    exact isFaultBehind_unexpected (t := ⟨kind, at'⟩)

theorem isFaultBehind_of_afterVerb {spec : TypeSpec} {v : Verb} {line : Nat} {tokens : List Token}
    {f : Fault} (h : afterVerb spec v line tokens = .error f) : IsFaultBehind line tokens f := by
  unfold afterVerb at h
  split at h
  · next openLine tokens =>
    rcases bind_eq_error_iff.mp h with hArgs | ⟨⟨args, rest⟩, hArgs, h⟩
    · exact (isFaultBehind_of_arguments hArgs).mono fun t ht => List.mem_cons_of_mem _ ht
    · -- the selector stands behind the arguments
      have hSelector : selector spec v args line rest = .error f := h
      obtain ⟨read, _, closeLine, rfl, -, -⟩ := exists_goesOn_of_arguments (by simp) hArgs
      refine (isFaultBehind_of_selector hSelector).mono fun t ht => ?_
      exact List.mem_cons_of_mem _ (List.mem_append_right read (List.mem_cons_of_mem _ ht))
  · exact isFaultBehind_of_selector h

theorem isFaultBehind_of_afterSpec {spec : TypeSpec} {line : Nat} {tokens : List Token} {f : Fault}
    (h : afterSpec spec line tokens = .error f) : IsFaultBehind line tokens f := by
  unfold afterSpec at h
  split at h
  · cases h
    exact .inl ⟨rfl, .unterminatedRule⟩
  · next keyword verbLine after =>
    split at h
    · exact (isFaultBehind_of_afterVerb h).mono fun t ht => List.mem_cons_of_mem _ ht
    · cases h
      exact .inr ⟨⟨.ident keyword, verbLine⟩, List.mem_cons_self, rfl, .unknownKeyword⟩
  · next kind at' rest _ =>
    cases h
    exact isFaultBehind_unexpected (t := ⟨kind, at'⟩)

/-- A fault names the line of a token that it is about. -/
theorem exists_isAbout_of_next {first : Token} {rest : List Token} {f : Fault}
    (h : next first rest = .error f) :
    ∃ t ∈ first :: rest, f.1 = t.line ∧ f.2.IsAbout t.kind := by
  have hUnexpected : ∀ {t : Token}, t ∈ first :: rest → f = (t.line, .unexpected t.kind) →
      ∃ t ∈ first :: rest, f.1 = t.line ∧ f.2.IsAbout t.kind := by
    rintro t ht rfl
    exact ⟨t, ht, rfl, .unexpected⟩
  unfold next at h
  split at h
  · cases h
  · next name hKind =>
    split at h
    · next hImport =>
      split at h
      · cases h
        exact ⟨first, List.mem_cons_self, rfl, by rw [hKind, hImport]; exact .importWithoutName⟩
      · cases h
      · next kind at' after _ =>
        cases h
        exact hUnexpected (t := ⟨kind, at'⟩) (by simp) rfl
    · cases h
      exact hUnexpected List.mem_cons_self rfl
  · next text hKind =>
    rcases bind_eq_error_iff.mp h with hSpec | ⟨spec, hSpec, h⟩
    · obtain ⟨fault, hFault, rfl⟩ := mapError_eq_error_iff.mp hSpec
      exact ⟨first, List.mem_cons_self, rfl, by rw [hKind]; exact .spec hFault⟩
    · rw [mapError_eq_ok_iff] at hSpec
      rcases isFaultBehind_of_afterSpec h with ⟨hLine, hRule⟩ | ⟨t, ht, hLine, hAbout⟩
      · exact ⟨first, List.mem_cons_self, hLine, by rw [hKind]; exact .rule hRule hSpec⟩
      · exact ⟨t, List.mem_cons_of_mem _ ht, hLine, hAbout⟩
  · cases h
    exact hUnexpected List.mem_cons_self rfl

end Statement

namespace RuleFile

/-! ## Rules -/

/-- `file` is the file that is read as `path`, with its text, or one that the source has. -/
inductive IsTextOf (source : RuleSource) (path : Path) (text : String) : Path → String → Prop
  | self : IsTextOf source path text path text
  | read {file : Path} {text' : String} (hRead : source.read file = .ok text') :
      IsTextOf source path text file text'

/-- The rule is a statement of the file, at its own location. -/
def StandsIn (r : Rule) (file : Path) (statements : List Statement) : Prop :=
  r.location.file = file.text ∧ .rule r.spec r.kind r.path r.location.line ∈ statements

theorem StandsIn.cons {r : Rule} {file : Path} {statements : List Statement}
    (h : StandsIn r file statements) (statement : Statement) :
    StandsIn r file (statement :: statements) :=
  ⟨h.1, List.mem_cons_of_mem statement h.2⟩

section

variable {source : RuleSource} {path : Path} {text : String} {parsed : ParsedRules} {r : Rule}

/-- A rule among the entries stands in the file itself or in one that is imported on the way. -/
theorem Reads.exists_standsIn {read : Path → Except FileError String} {depth : Nat} {f : Frame}
    {group : String} {statements : List Statement} {entries : List GroupEntry} {opened : List Path}
    (h : Reads read depth f group statements entries opened) {group' : String}
    (hMem : (group', some r) ∈ entries) :
    StandsIn r f.path statements ∨
      ∃ file inner, FileStates read file inner ∧ StandsIn r file inner := by
  induction h with
  | done => cases hMem
  | header _ ih =>
    -- a header has no rule
    have hLater := (List.mem_cons.mp hMem).resolve_left nofun
    exact (ih hLater).imp_left fun hStands => hStands.cons _
  | rule _ ih =>
    rcases List.mem_cons.mp hMem with hSame | hLater
    · cases hSame
      exact .inl ⟨rfl, List.mem_cons_self⟩
    · exact (ih hLater).imp_left fun hStands => hStands.cons _
  | importFile _ hFile _ _ ihInner ihRest =>
    rcases List.mem_append.mp hMem with hInner | hLater
    · -- the imported file is one that the source has
      rcases ihInner hInner with hStands | hDeeper
      · exact .inr ⟨_, _, hFile, hStands⟩
      · exact .inr hDeeper
    · exact (ihRest hLater).imp_left fun hStands => hStands.cons _

/-- Every rule that is read is a statement of some file, at its own location. -/
theorem exists_statement_of_parse (h : (parse source path text).result = .ok parsed)
    (hr : r ∈ parsed.rules) :
    ∃ file text' statements, IsTextOf source path text file text' ∧ TextStates text' statements ∧
      StandsIn r file statements := by
  obtain ⟨statements, hStates⟩ := exists_states_of_runText h
  rw [parse_of_states hStates] at h
  obtain ⟨entries, hReads, rfl⟩ := run_gives_iff.mp ⟨rfl, h⟩
  obtain ⟨group, hEntry⟩ := ParsedRules.mem_rules_collect_iff.mp hr
  rcases hReads.exists_standsIn hEntry with hStands | ⟨file, inner, ⟨text', hRead, hInner⟩, hStands⟩
  · exact ⟨path, text, statements, .self, hStates, hStands⟩
  · exact ⟨file, text', inner, .read hRead, hInner, hStands⟩

end

end RuleFile

/-- The rule is one of those that some text gives. -/
def Rule.IsRead (r : Rule) : Prop :=
  ∃ source path text parsed, (RuleFile.parse source path text).result = .ok parsed ∧
    r ∈ parsed.rules

/-- The tokens of a rule that is read. -/
theorem Rule.IsRead.exists_isStatement {r : Rule} (h : r.IsRead) :
    ∃ tokens, IsStatement tokens (.rule r.spec r.kind r.path r.location.line) := by
  obtain ⟨source, path, text, parsed, hParse, hr⟩ := h
  obtain ⟨file, text', statements, -, ⟨tokens, -, hTokens⟩, hStands⟩ :=
    RuleFile.exists_statement_of_parse hParse hr
  obtain ⟨before, part, after, -, hPart⟩ := hTokens.exists_part hStands.2
  exact ⟨part, hPart⟩

/-- The rule of a text of one statement is read. -/
theorem Rule.isRead_of_states {text : String} {spec : TypeSpec} {kind : RuleKind} {path : FieldPath}
    {line : Nat} (h : TextStates text [.rule spec kind path line]) (file : String) :
    IsRead ⟨spec, kind, path, ⟨file, line⟩, anonymousGroup⟩ :=
  ⟨.ofFiles [], ⟨file⟩, text, _, congrArg Outcome.result (RuleFile.parse_of_states h),
    List.mem_singleton.mpr rfl⟩

namespace RuleFile

/-! ## Errors -/

/-- Why the text of a file fails by itself: it has no tokens, or these are no statements, or one of
its imports is a cycle. -/
inductive FailsIn (file : Path) (text : String) : RuleError → Prop
  | token {line : Nat} {fault : TokenFault} (hScan : Token.scan text = .error (line, fault)) :
      FailsIn file text (.parse file line (.token fault))
  | statement {tokens : List Token} {line : Nat} {fault : StatementFault}
      (hScan : Token.scan text = .ok tokens) (hFault : (line, fault) ∈ (Statement.all tokens).2) :
      FailsIn file text (.parse file line fault)
  | importCycle {tokens : List Token} {name : String} {line : Nat}
      (hScan : Token.scan text = .ok tokens)
      (hImport : .importFile name line ∈ (Statement.all tokens).1) :
      FailsIn file text (.importCycle file line (file.sibling ⟨name⟩))

section

variable {importer : Path → Option String → ParsedRules → Outcome} {stack : List Path} {path : Path}
  {outer : Option String} {fault? : Option Fault} {e : RuleError}

/-- Why statements fail: with the fault that comes last, with a cycle, or as an imported file does. -/
inductive StatementsFail (importer : Path → Option String → ParsedRules → Outcome) (path : Path)
    (fault? : Option Fault) (statements : List Statement) : RuleError → Prop
  | fault {line : Nat} {fault : StatementFault} (hFault : (line, fault) ∈ fault?) :
      StatementsFail importer path fault? statements (.parse path line fault)
  | importCycle {name : String} {line : Nat} (hImport : .importFile name line ∈ statements) :
      StatementsFail importer path fault? statements
        (.importCycle path line (path.sibling ⟨name⟩))
  | imported {target : Path} {outer : Option String} {rules : ParsedRules} {e : RuleError}
      (hInner : (importer target outer rules).result = .error e) :
      StatementsFail importer path fault? statements e

theorem StatementsFail.cons {statements : List Statement}
    (h : StatementsFail importer path fault? statements e) (statement : Statement) :
    StatementsFail importer path fault? (statement :: statements) e := by
  cases h with
  | fault hFault => exact .fault hFault
  | importCycle hImport => exact .importCycle (List.mem_cons_of_mem statement hImport)
  | imported hInner => exact .imported hInner

theorem statementsFail_of_runStatements {statements : List Statement} {group : String}
    {rules : ParsedRules}
    (h : (runStatements importer stack path outer fault? statements group rules).result = .error e) :
    StatementsFail importer path fault? statements e := by
  induction statements generalizing group rules with
  | nil =>
    rcases fault? with _ | ⟨line, fault⟩
    · cases h
    · cases h
      exact .fault rfl
  | cons statement statements ih =>
    cases statement with
    | header name => exact (ih h).cons _
    | rule spec kind fields line => exact (ih h).cons _
    | importFile name line =>
      -- the import is a cycle, or it fails, or what stands behind it does
      unfold runStatements at h
      simp only at h
      split at h
      · cases h
        exact .importCycle List.mem_cons_self
      · split at h
        · next hInner =>
          cases h
          exact .imported hInner
        · exact (ih h).cons _

/-- A text fails by itself, or as an imported file does. -/
theorem failsIn_or_of_runText {text : String} {rules : ParsedRules}
    (h : (runText importer stack path text outer rules).result = .error e) :
    FailsIn path text e ∨ ∃ target outer rules, (importer target outer rules).result = .error e := by
  rw [runText] at h
  rcases hScan : Token.scan text with ⟨line, fault⟩ | tokens
  · rw [hScan] at h
    cases h
    exact .inl (.token hScan)
  · rw [hScan] at h
    cases statementsFail_of_runStatements h with
    | fault hFault => exact .inl (.statement hScan hFault)
    | importCycle hImport => exact .inl (.importCycle hScan hImport)
    | imported hInner => exact .inr ⟨_, _, _, hInner⟩

end

section

variable {source : RuleSource} {e : RuleError}

/-- An import fails because a file cannot be read, or as the text of some file does. -/
theorem exists_failsIn_of_readImport {depth : Nat} {stack : List Path} {target : Path}
    {outer : Option String} {rules : ParsedRules}
    (h : (readImport source depth stack target outer rules).result = .error e) :
    (∃ file cause, e = .unreadable file cause) ∨
      ∃ file text, source.read file = .ok text ∧ FailsIn file text e := by
  -- on the depth: an import inside of the imported file is read with less of it
  induction depth generalizing stack target outer rules with
  | zero =>
    cases h
    exact .inl ⟨target, .nameTooLong, rfl⟩
  | succ depth ih =>
    rw [readImport] at h
    rcases hRead : source.read target with cause | text
    · rw [hRead] at h
      cases h
      exact .inl ⟨target, cause, rfl⟩
    · rw [hRead] at h
      rcases failsIn_or_of_runText h with hFails | ⟨target', outer', rules', hInner⟩
      · exact .inr ⟨target, text, hRead, hFails⟩
      · exact ih hInner

/-- Every error is that of a file that cannot be read, or one in the text of a file. -/
theorem exists_failsIn_of_parse {path : Path} {text : String}
    (h : (parse source path text).result = .error e) :
    (∃ file cause, e = .unreadable file cause) ∨
      ∃ file text', IsTextOf source path text file text' ∧ FailsIn file text' e := by
  rcases failsIn_or_of_runText h with hFails | ⟨target, outer, rules, hInner⟩
  · exact .inr ⟨path, text, .self, hFails⟩
  · rcases exists_failsIn_of_readImport hInner with hUnreadable | ⟨file, text', hRead, hFails⟩
    · exact .inl hUnreadable
    · exact .inr ⟨file, text', .read hRead, hFails⟩

end

end RuleFile

/-! ## Lines -/

/-- What a text has on a line: a token, or the first thing there that is none. -/
inductive Token.StandsOn (text : String) : Nat → Option TokenKind → Prop
  | token {before after : List Token} {kind : TokenKind} {line : Nat}
      (hScan : Token.scan text = .ok (before ++ ⟨kind, line⟩ :: after)) :
      StandsOn text line (some kind)
  | fault {line : Nat} {fault : TokenFault} (hScan : Token.scan text = .error (line, fault)) :
      StandsOn text line none

/-- The file and the line that an error names. -/
def RuleError.place? : RuleError → Option (Path × Nat)
  | unreadable _ _ => none
  | parse file line _ => some (file, line)
  | importCycle file line _ => some (file, line)

/-- What stands where an error says: a token, or something that is none. -/
inductive RuleError.IsAbout : RuleError → Option TokenKind → Prop
  | token {file : Path} {line : Nat} {fault : TokenFault} : IsAbout (.parse file line (.token fault)) none
  | statement {file : Path} {line : Nat} {fault : StatementFault} {kind : TokenKind}
      (hAbout : fault.IsAbout kind) : IsAbout (.parse file line fault) (some kind)
  | importCycle {file : Path} {line : Nat} {name : String} :
      IsAbout (.importCycle file line (file.sibling ⟨name⟩)) (some (.string name))

namespace RuleFile

/-- A rule of a file names the line of its type spec. -/
theorem StandsIn.exists_standsOn {r : Rule} {file : Path} {text : String} {statements : List Statement}
    (h : StandsIn r file statements) (hStates : TextStates text statements) :
    ∃ specText, Token.StandsOn text r.location.line (some (.string specText)) ∧
      TypeSpec.parse specText = .ok r.spec := by
  obtain ⟨tokens, hScan, hTokens⟩ := hStates
  obtain ⟨before, specText, after, rfl, hSpec⟩ := hTokens.exists_spec h.2
  exact ⟨specText, .token hScan, hSpec⟩

/-- An error in a file names the line of what it is about. -/
theorem FailsIn.exists_standsOn {file : Path} {text : String} {e : RuleError}
    (h : FailsIn file text e) :
    ∃ line kind?, e.place? = some (file, line) ∧ e.IsAbout kind? ∧ Token.StandsOn text line kind? := by
  cases h with
  | token hScan => exact ⟨_, none, rfl, .token, .fault hScan⟩
  | @statement tokens line fault hScan hFault =>
    obtain ⟨done, rest, hTokens, -, hRest⟩ :=
      Statement.exists_areStatements_of_upTo tokens.length tokens
    obtain ⟨first, later, rfl, hNext⟩ := hRest _ hFault
    -- behind the statements in front of the fault stands the token that it is about
    obtain ⟨⟨kind, at'⟩, ht, hLine, hAbout⟩ := Statement.exists_isAbout_of_next hNext
    obtain ⟨before, after, hSplit⟩ := List.append_of_mem ht
    rw [hTokens, hSplit, ← List.append_assoc] at hScan
    obtain rfl : line = at' := hLine
    exact ⟨line, some kind, rfl, .statement hAbout, .token hScan⟩
  | @importCycle tokens name line hScan hImport =>
    obtain ⟨done, rest, hTokens, hDone, -⟩ :=
      Statement.exists_areStatements_of_upTo tokens.length tokens
    obtain ⟨before, after, rfl⟩ := hDone.exists_fileName hImport
    rw [hTokens, List.append_assoc, List.cons_append] at hScan
    exact ⟨line, _, rfl, .importCycle, .token hScan⟩

end RuleFile

end RefRules
