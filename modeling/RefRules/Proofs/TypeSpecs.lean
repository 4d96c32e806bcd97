import RefRules.Proofs.PathText
import RefRules.Proofs.RegexAnchors

/-!
# RefRules — reading and comparing type specs

A spec is split at its first colon before its slashes are looked at, so that a pattern with a colon in
it is taken apart unless an assembly stands in front of it. Specs are compared by their texts, and
different specs can have one text: one that was read and one that was made of an assembly and a name, or
two that were made.

Main definitions and results:

* `TypeSpec.readsAs_iff` — which patterns between slashes are read as such;
* `TypeSpec.IsPlain` — a text that all specs with it agree on;
* `TypeSpec.sameMatches_iff` — for which texts equal specs accept the same types.
-/

namespace RefRules

open Text

/-! ## Texts -/

theorem trim_slashed (p : List Char) : trim ('/' :: (p ++ ['/'])) = '/' :: (p ++ ['/']) := by
  refine IsTrimmed.trim_eq ⟨?_, ?_⟩
  · simp; decide
  · rw [← List.cons_append, List.getLast?_concat]
    simp; decide

/-! ## Names of assemblies -/

/-- A text in the form in which names of assemblies are compared. -/
structure IsNormal (name : List Char) : Prop where
  lower : name.map Char.toLower = name
  head : ∀ c ∈ name.head?, isBlank c = false

theorem isBlank_eq_false_of_letter {c : Char} (hLow : 65 ≤ c.toNat) (hHigh : c.toNat ≤ 122) :
    isBlank c = false := by
  simp only [isBlank, Bool.or_eq_false_iff, Bool.and_eq_false_iff, decide_eq_false_iff_not,
    beq_eq_false_iff_ne]
  omega

theorem isBlank_toLower (c : Char) : isBlank c.toLower = isBlank c := by
  by_cases hUpper : c.isUpper = true
  · -- neither a capital nor its small letter is a blank
    have hCode : 65 ≤ c.toNat ∧ c.toNat ≤ 90 := by
      simpa [Char.isUpper, UInt32.le_iff_toNat_le] using hUpper
    rw [Char.toLower_eq_of_isUpper hUpper]
    have hLower : (Char.ofNat (c.toNat + 32)).toNat = c.toNat + 32 := by
      rw [Char.toNat_ofNat, if_pos (.inl (by omega))]
    rw [isBlank_eq_false_of_letter (c := c) (by omega) (by omega),
      isBlank_eq_false_of_letter (by omega) (by omega)]
  · rw [Char.toLower_eq_of_not_isUpper hUpper]

theorem IsNormal.of_prefix {name start : List Char} (h : IsNormal name) (hStart : start <+: name) :
    IsNormal start := by
  obtain ⟨rest, rfl⟩ := hStart
  refine ⟨?_, fun c hc => h.head c ?_⟩
  · have hLower := h.lower
    rw [List.map_append] at hLower
    exact List.append_inj_left hLower (by simp)
  · rw [List.head?_append, Option.mem_def.mp hc]
    rfl

theorem IsNormal.append {name rest : List Char} (h : IsNormal name) (hNonempty : name ≠ [])
    (hRest : rest.map Char.toLower = rest) : IsNormal (name ++ rest) := by
  refine ⟨by rw [List.map_append, h.lower, hRest], ?_⟩
  obtain ⟨c, start, rfl⟩ := List.exists_cons_of_ne_nil hNonempty
  exact h.head

theorem isNormal_normalizeAssembly (name : String) : IsNormal (normalizeAssembly name).toList := by
  have hWhole : IsNormal ((trim name.toList).map Char.toLower) := by
    refine ⟨by simp [Function.comp_def], fun c hc => ?_⟩
    rw [List.head?_map] at hc
    obtain ⟨d, hd, rfl⟩ := Option.map_eq_some_iff.mp hc
    rw [isBlank_toLower]
    exact (isTrimmed_trim name.toList).head d hd
  rw [normalizeAssembly, String.toList_ofList]
  refine hWhole.of_prefix ?_
  unfold stripEnd?
  split
  · exact List.take_prefix _ _
  · exact List.prefix_refl _

theorem normalizeAssembly_trim (name : String) :
    normalizeAssembly (String.ofList (trim name.toList)) = normalizeAssembly name := by
  simp [normalizeAssembly, trim_trim]

/-- Any normal text is the form of some name, be it one with a file extension itself. -/
theorem normalizeAssembly_extended {name : List Char} (h : IsNormal name) :
    normalizeAssembly (String.ofList (name ++ ".dll".toList)) = String.ofList name := by
  have hTrimmed : IsTrimmed (name ++ ".dll".toList) := by
    refine ⟨fun c hc => ?_, fun c hc => ?_⟩
    · cases name with
      | nil =>
        cases hc
        rfl
      | cons d name => exact h.head c hc
    · rw [List.getLast?_append] at hc
      cases hc
      rfl
  have hLower : (name ++ ".dll".toList).map Char.toLower = name ++ ".dll".toList := by
    rw [List.map_append, h.lower]
    rfl
  unfold normalizeAssembly
  rw [String.toList_ofList, hTrimmed.trim_eq, hLower]
  exact congrArg (fun stripped : Option (List Char) => String.ofList (stripped.getD _))
    (stripEnd?_append ".dll".toList name)

namespace TypeSpec

open Regex

variable {engine : RegexEngine} {earlier : List String} {cache : RegexCache} {text p : String}
  {spec : TypeSpec}

/-! ## Reading -/

/-- What is read, whatever was compiled before. -/
theorem parseWith_eq (h : IsFaithful engine cache) (text : String) :
    (parseWith cache text).1 =
      if (parts text).2.isEmpty then .error (.noName text)
      else
        match slashed? (parts text).2 with
        | none => .ok ⟨text, assemblyOf? (parts text).1, .exact (String.ofList (parts text).2)⟩
        | some inner =>
          ((engine.compile (anchored (String.ofList inner))).mapError
            (.badPattern (String.ofList inner))).map fun compiled =>
              ⟨text, assemblyOf? (parts text).1, .regex (String.ofList inner) compiled⟩ := by
  unfold parseWith
  dsimp only
  split
  · rfl
  · cases slashed? (parts text).2 with
    | none => rfl
    | some inner =>
      dsimp only
      rw [← get_of_isFaithful h]
      obtain ⟨outcome, cache'⟩ := cache.get (String.ofList inner)
      cases outcome <;> rfl

theorem parseWith_asked (earlier : List String) (text : String) :
    (parseWith (asked .standard earlier) text).1 = parse text := by
  rw [parseWith_eq (isFaithful_asked .standard earlier), parse,
    ← parseWith_eq (isFaithful_asked .standard [])]
  rfl

/-- What is read keeps its text, and its assembly is what stands before the first colon. -/
theorem eq_of_parseWith (h : IsFaithful engine cache) (hRead : (parseWith cache text).1 = .ok spec) :
    spec.text = text ∧ spec.assembly = assemblyOf? (parts text).1 := by
  rw [parseWith_eq h] at hRead
  split at hRead
  · cases hRead
  · split at hRead
    · cases hRead
      exact ⟨rfl, rfl⟩
    · obtain ⟨compiled, -, hSame⟩ := map_eq_ok_iff.mp hRead
      cases hSame
      exact ⟨rfl, rfl⟩

theorem eq_of_parse (h : parse text = .ok spec) :
    spec.text = text ∧ spec.assembly = assemblyOf? (parts text).1 :=
  eq_of_parseWith (isFaithful_asked .standard []) h

theorem slashed?_eq (p : List Char) : slashed? ('/' :: (p ++ ['/'])) = some p :=
  stripEnd?_append ['/'] p

/-- The text is read as the regex spec of a pattern for some assembly, or for all. -/
def ReadsAs (cache : RegexCache) (text p : String) (assembly : Option String) : Prop :=
  ∃ compiled, cache.engine.compile (anchored p) = .ok compiled ∧
    (parseWith cache text).1 = .ok ⟨text, assembly, .regex p compiled⟩

/-- The assembly that is asked for by a name, which may be blank. -/
def assemblyNamed (name : String) : Option String :=
  if (trim name.toList).isEmpty then none else some (normalizeAssembly name)

theorem readsAs_iff_of_parts (engine : RegexEngine) (earlier : List String)
    {assembly : Option (List Char)}
    (hParts : parts text = (assembly, '/' :: (p.toList ++ ['/']))) :
    ReadsAs (asked engine earlier) text p (assemblyOf? assembly) ↔ engine.Accepts (anchored p) := by
  have hRead : (parseWith (asked engine earlier) text).1 =
      ((engine.compile (anchored p)).mapError (.badPattern p)).map fun compiled =>
        ⟨text, assemblyOf? assembly, .regex p compiled⟩ := by
    simp only [parseWith_eq (isFaithful_asked engine earlier), hParts, slashed?_eq, List.isEmpty_cons,
      Bool.false_eq_true, if_false, String.ofList_toList]
  unfold ReadsAs
  rw [hRead, (isFaithful_asked engine earlier).sameEngine]
  refine exists_congr fun w => and_iff_left_of_imp fun hWhole => ?_
  exact map_eq_ok_iff.mpr ⟨w, mapError_eq_ok_iff.mpr hWhole, rfl⟩

theorem assemblyOf?_trim (name : List Char) :
    assemblyOf? (some (trim name)) = assemblyNamed (String.ofList name) := by
  have hSame := normalizeAssembly_trim (String.ofList name)
  unfold assemblyNamed
  rw [String.toList_ofList] at hSame ⊢
  cases hTrim : trim name with
  | nil => rfl
  | cons c rest =>
    rw [hTrim] at hSame
    exact congrArg some hSame

theorem assemblyNamed_ne_none {name : List Char} {c : Char} (hc : c ∈ name)
    (hBlank : isBlank c = false) : assemblyNamed (String.ofList name) ≠ none := by
  unfold assemblyNamed
  rw [String.toList_ofList]
  split
  · next hEmpty =>
    rw [trim_eq_nil_iff.mp (List.isEmpty_iff.mp hEmpty) c hc] at hBlank
    cases hBlank
  · exact nofun

/-- A text between slashes is read as a pattern, if it is one for the engine when it stands between
anchors: without an assembly in front of it exactly when there is no colon in it, and with one in any
case. -/
theorem readsAs_iff (engine : RegexEngine) (earlier : List String) (p : String) {a : String}
    (ha : ':' ∉ a.toList) :
    (ReadsAs (asked engine earlier) ("/" ++ p ++ "/") p none ↔
        ':' ∉ p.toList ∧ engine.Accepts (anchored p)) ∧
      (ReadsAs (asked engine earlier) (a ++ ":/" ++ p ++ "/") p (assemblyNamed a) ↔
        engine.Accepts (anchored p)) := by
  have hSlashed : ("/" ++ p ++ "/").toList = '/' :: (p.toList ++ ['/']) := by
    simp [String.toList_append]
  constructor
  · by_cases hColon : ':' ∈ p.toList
    · -- the colon of the pattern ends an assembly, which is not blank
      refine iff_of_false ?_ fun h => h.1 hColon
      rintro ⟨compiled, -, h⟩
      have hAssembly := (eq_of_parseWith (isFaithful_asked engine earlier) h).2
      rw [parts, hSlashed] at hAssembly
      cases hSplit : splitOnce? ':' ('/' :: (p.toList ++ ['/'])) with
      | none => exact absurd hColon (by simpa using splitOnce?_eq_none_iff.mp hSplit)
      | some around =>
        obtain ⟨before, after⟩ := around
        obtain ⟨hText, -⟩ := eq_append_of_splitOnce? hSplit
        simp only [hSplit, assemblyOf?_trim] at hAssembly
        cases before with
        | nil => cases hText
        | cons c before =>
          rw [List.cons_append, List.cons.injEq] at hText
          obtain ⟨rfl, -⟩ := hText
          exact assemblyNamed_ne_none List.mem_cons_self (by decide) hAssembly.symm
    · have hParts : parts ("/" ++ p ++ "/") = (none, '/' :: (p.toList ++ ['/'])) := by
        have hNone : splitOnce? ':' ('/' :: (p.toList ++ ['/'])) = none :=
          splitOnce?_eq_none_iff.mpr (by simp [hColon])
        rw [parts, hSlashed, hNone]
        simp only [trim_slashed]
      have hReads := readsAs_iff_of_parts engine earlier hParts
      exact hReads.trans (and_iff_right hColon).symm
  · have hText : (a ++ ":/" ++ p ++ "/").toList = a.toList ++ ':' :: '/' :: (p.toList ++ ['/']) := by
      simp [String.toList_append]
    have hParts : parts (a ++ ":/" ++ p ++ "/") =
        (some (trim a.toList), '/' :: (p.toList ++ ['/'])) := by
      rw [parts, hText, splitOnce?_append ha]
      simp only [trim_slashed]
    have hReads := readsAs_iff_of_parts engine earlier hParts
    rwa [assemblyOf?_trim, String.ofList_toList] at hReads

/-- The pattern `(?:a|b)` is read behind an assembly alone. -/
theorem readsAs_behind_assembly :
    RegexEngine.standard.Accepts "(?:a|b)" ∧ ':' ∉ "Game.dll".toList ∧
      ReadsAs (asked .standard []) "Game.dll:/(?:a|b)/" "(?:a|b)" (some "game") ∧
      ¬ReadsAs (asked .standard []) "/(?:a|b)/" "(?:a|b)" none := by
  have hAssembly : ':' ∉ "Game.dll".toList := by decide
  have hWhole : RegexEngine.standard.Accepts (anchored "(?:a|b)") := ⟨_, rfl⟩
  obtain ⟨hAlone, hBehind⟩ := readsAs_iff .standard [] "(?:a|b)" hAssembly
  exact ⟨⟨_, rfl⟩, hAssembly, hBehind.mpr hWhole, fun h => (hAlone.mp h).1 (by decide)⟩

/-- The pattern `(?:a|b)` between slashes is read as the name `a|b)/` in an assembly `/(?`. -/
theorem not_readsAs_alternatives :
    RegexEngine.standard.Accepts "(?:a|b)" ∧
      parse "/(?:a|b)/" = .ok ⟨"/(?:a|b)/", some "/(?", .exact "a|b)/"⟩ ∧
      ¬ReadsAs {} "/(?:a|b)/" "(?:a|b)" none := by
  have hRead : parse "/(?:a|b)/" = .ok ⟨"/(?:a|b)/", some "/(?", .exact "a|b)/"⟩ := by cbv
  refine ⟨⟨_, rfl⟩, hRead, ?_⟩
  rintro ⟨compiled, -, h⟩
  rw [show (parseWith {} "/(?:a|b)/").1 = parse "/(?:a|b)/" from rfl, hRead] at h
  cases h

/-! ## Specs with one text -/

/-- A spec as it can come to be: read from a text, or made of an assembly and a name. -/
inductive IsBuilt : TypeSpec → Prop
  | parsed {earlier : List String} {text : String} {spec : TypeSpec}
      (h : (parseWith (asked .standard earlier) text).1 = .ok spec) : IsBuilt spec
  | exact (assembly name : String) : IsBuilt (exact assembly name)

/-- Equal specs with a text accept the same types. -/
def SameMatches (text : String) : Prop :=
  ∀ s t : TypeSpec, IsBuilt s → IsBuilt t → s.text = text → (s == t) = true →
    ∀ assembly name, s.accepts assembly name = t.accepts assembly name

/-- What stands behind the first colon of a text has another colon, up to which it is in lower case. -/
def SplitsAgain (name : List Char) : Prop :=
  ∃ before after, name = before ++ ':' :: after ∧ before.map Char.toLower = before

/-- If the text before the first colon has the form of an assembly's name, then it is not empty, the
text behind it does not split again, and if the whole text is read as a spec, then as one for this
assembly and this name. -/
def IsPlain (text : String) : Prop :=
  ∀ assembly name, splitOnce? ':' text.toList = some (assembly, name) → IsNormal assembly →
    assembly ≠ [] ∧ ¬SplitsAgain name ∧
      ∀ spec, parse text = .ok spec →
        normalizeAssembly (String.ofList assembly) = String.ofList assembly ∧
          ∀ other, spec.acceptsName other = true ↔ other = String.ofList name

theorem beq_iff_text_eq {s t : TypeSpec} : (s == t) = true ↔ s.text = t.text :=
  beq_iff_eq (a := s.text)

theorem accepts_eq_true_iff {assembly name : String} :
    spec.accepts assembly name = true ↔
      spec.acceptsAssembly assembly = true ∧ spec.acceptsName name = true := by
  rw [accepts, Bool.and_eq_true]

theorem exact_of_ne {a : String} (ha : a ≠ "") (n : String) :
    exact a n = ⟨normalizeAssembly a ++ ":" ++ n, some (normalizeAssembly a), .exact n⟩ := by
  unfold exact
  rw [if_neg (by simpa using ha)]
  rfl

theorem toList_text_exact_empty (n : String) : (exact "" n).text.toList = [] ++ ':' :: n.toList := by
  simp [exact, String.toList_append]

theorem toList_text_exact {a : String} (ha : a ≠ "") (n : String) :
    (exact a n).text.toList = (normalizeAssembly a).toList ++ ':' :: n.toList := by
  rw [exact_of_ne ha]
  simp [String.toList_append]

theorem accepts_exact_iff {a n assembly name : String} (ha : a ≠ "") :
    (exact a n).accepts assembly name = true ↔
      normalizeAssembly assembly = normalizeAssembly a ∧ name = n := by
  rw [accepts_eq_true_iff, exact_of_ne ha]
  simp only [acceptsAssembly, acceptsName, beq_iff_eq]
  exact and_congr eq_comm eq_comm

/-! ### Made specs by their texts -/

/-- A made spec whose text begins with a given name of an assembly. -/
def made (assembly name : List Char) : TypeSpec :=
  exact (String.ofList (assembly ++ ".dll".toList)) (String.ofList name)

variable {assembly name : List Char}

theorem extended_ne_empty (assembly : List Char) : String.ofList (assembly ++ ".dll".toList) ≠ "" := by
  intro h
  have hList := congrArg String.toList h
  simp at hList

theorem toList_text_made (h : IsNormal assembly) :
    (made assembly name).text.toList = assembly ++ ':' :: name := by
  rw [made, toList_text_exact (extended_ne_empty assembly), normalizeAssembly_extended h,
    String.toList_ofList, String.toList_ofList]

theorem accepts_made_iff (h : IsNormal assembly) {other otherName : String} :
    (made assembly name).accepts other otherName = true ↔
      normalizeAssembly other = String.ofList assembly ∧ otherName = String.ofList name := by
  rw [made, accepts_exact_iff (extended_ne_empty assembly), normalizeAssembly_extended h]

/-- The text of a made spec splits behind its assembly, or within. -/
theorem splitOnce?_made (h : IsNormal assembly) (name : List Char) :
    splitOnce? ':' (assembly ++ ':' :: name) = some (assembly, name) ∨
      ∃ before after, IsNormal before ∧ after.map Char.toLower = after ∧
        splitOnce? ':' (assembly ++ ':' :: name) = some (before, after ++ ':' :: name) := by
  cases hSplit : splitOnce? ':' assembly with
  | none => exact .inl (splitOnce?_append (splitOnce?_eq_none_iff.mp hSplit) name)
  | some around =>
    obtain ⟨before, after⟩ := around
    obtain ⟨rfl, hBefore⟩ := eq_append_of_splitOnce? hSplit
    have hLower := h.lower
    rw [List.map_append, List.map_cons] at hLower
    refine .inr ⟨before, after, h.of_prefix (List.prefix_append _ _), ?_, ?_⟩
    · exact (List.cons.inj (List.append_inj_right hLower (by simp))).2
    · rw [List.append_assoc, List.cons_append]
      exact splitOnce?_append hBefore _

theorem exists_normal_text_exact (a n : String) :
    ∃ start, IsNormal start ∧ (exact a n).text.toList = start ++ ':' :: n.toList := by
  by_cases ha : a = ""
  · subst ha
    exact ⟨[], ⟨rfl, nofun⟩, toList_text_exact_empty n⟩
  · exact ⟨_, isNormal_normalizeAssembly a, toList_text_exact ha n⟩

/-- A spec whose text does not begin with a name of an assembly was read. -/
theorem parse_of_not_normal (hBuilt : IsBuilt spec)
    (h : ∀ assembly name, splitOnce? ':' spec.text.toList = some (assembly, name) →
      ¬IsNormal assembly) : parse spec.text = .ok spec := by
  cases hBuilt with
  | parsed hRead =>
    rw [parseWith_asked] at hRead
    rwa [(eq_of_parse hRead).1]
  | exact a n =>
    obtain ⟨start, hStart, hText⟩ := exists_normal_text_exact a n
    rw [hText] at h
    rcases splitOnce?_made hStart n.toList with hSplit | ⟨before, after, hBefore, -, hSplit⟩
    · exact absurd hStart (h _ _ hSplit)
    · exact absurd hBefore (h _ _ hSplit)

theorem assembly_of_parse (hRead : parse text = .ok spec)
    (hSplit : splitOnce? ':' text.toList = some (assembly, name)) (hNormal : IsNormal assembly)
    (hNonempty : assembly ≠ []) :
    spec.assembly = some (normalizeAssembly (String.ofList assembly)) := by
  obtain ⟨c, rest, rfl⟩ := List.exists_cons_of_ne_nil hNonempty
  have hAssembly := (eq_of_parse hRead).2
  simp only [parts, hSplit, assemblyOf?_trim] at hAssembly
  rw [hAssembly]
  have hNamed := assemblyNamed_ne_none (List.mem_cons_self (a := c) (l := rest)) (hNormal.head c rfl)
  unfold assemblyNamed at hNamed ⊢
  split
  · next hBlank => exact absurd (if_pos hBlank) hNamed
  · rfl

/-! ### Plain texts -/

theorem isPlain_of_sameMatches (h : SameMatches text) : IsPlain text := by
  intro assembly name hSplit hNormal
  obtain ⟨hText, -⟩ := eq_append_of_splitOnce? hSplit
  have hMade : (made assembly name).text = text :=
    String.toList_injective ((toList_text_made hNormal).trans hText.symm)
  have hSame {spec : TypeSpec} (hBuilt : IsBuilt spec) (hSpec : spec.text = text)
      (other otherName : String) : spec.accepts other otherName = true ↔
        normalizeAssembly other = String.ofList assembly ∧ otherName = String.ofList name := by
    rw [h spec (made assembly name) hBuilt (.exact _ _) hSpec
      (beq_iff_text_eq.mpr (hSpec.trans hMade.symm)), accepts_made_iff hNormal]
  have hExtended := normalizeAssembly_extended hNormal
  have hNonempty : assembly ≠ [] := by
    rintro rfl
    -- an empty assembly stands for every other
    have hEmpty : (exact "" (String.ofList name)).text = text :=
      String.toList_injective (by rw [hText, toList_text_exact_empty, String.toList_ofList])
    have hAll : (exact "" (String.ofList name)).accepts "b" (String.ofList name) = true := by
      simp [exact, accepts, acceptsAssembly, acceptsName]
    have hOther := (hSame (.exact "" _) hEmpty "b" (String.ofList name)).mp hAll
    exact absurd hOther.1 (by decide)
  refine ⟨hNonempty, ?_, fun spec hRead => ?_⟩
  · -- a longer assembly and a shorter name would make the same text
    rintro ⟨before, after, rfl, hLower⟩
    have hLonger : IsNormal (assembly ++ ':' :: before) :=
      hNormal.append hNonempty (by rw [List.map_cons, hLower]; rfl)
    have hLaterText : (made (assembly ++ ':' :: before) after).text = text :=
      String.toList_injective (by rw [toList_text_made hLonger, hText]; simp)
    have hLater := (hSame (.exact _ _) hLaterText _ _).mp
      ((accepts_made_iff hLonger).mpr ⟨normalizeAssembly_extended hLonger, rfl⟩)
    have hLength := congrArg (fun name => name.toList.length) hLater.2
    simp at hLength
    omega
  · -- what is read is to accept what the made spec accepts
    have hBuilt : IsBuilt spec := .parsed ((parseWith_asked [] text).trans hRead)
    have hSpec := hSame hBuilt (eq_of_parse hRead).1
    have hAssembly := assembly_of_parse hRead hSplit hNormal hNonempty
    have hAccepts := accepts_eq_true_iff.mp ((hSpec _ _).mpr ⟨hExtended, rfl⟩)
    refine ⟨?_, fun other => ?_⟩
    · have hFirst := hAccepts.1
      simp only [acceptsAssembly, hAssembly, hExtended, beq_iff_eq] at hFirst
      exact hFirst
    · have hOther := hSpec (String.ofList (assembly ++ ".dll".toList)) other
      rw [accepts_eq_true_iff, hExtended] at hOther
      exact (and_iff_right hAccepts.1).symm.trans (hOther.trans (and_iff_right rfl))

theorem accepts_iff_of_isPlain (h : IsPlain text)
    (hSplit : splitOnce? ':' text.toList = some (assembly, name)) (hNormal : IsNormal assembly)
    (hBuilt : IsBuilt spec) (hText : spec.text = text) (other otherName : String) :
    spec.accepts other otherName = true ↔
      normalizeAssembly other = String.ofList assembly ∧ otherName = String.ofList name := by
  obtain ⟨hNonempty, hNoSplit, hAsRead⟩ := h assembly name hSplit hNormal
  cases hBuilt with
  | parsed hRead =>
    rw [parseWith_asked] at hRead
    obtain rfl := (eq_of_parse hRead).1.symm.trans hText
    obtain ⟨hForm, hName⟩ := hAsRead spec hRead
    have hAssembly := assembly_of_parse hRead hSplit hNormal hNonempty
    rw [accepts_eq_true_iff, hName, acceptsAssembly, hAssembly, hForm]
    simp only [beq_iff_eq]
    exact and_congr_left fun _ => eq_comm
  | exact a n =>
    subst hText
    by_cases ha : a = ""
    · subst ha
      rw [toList_text_exact_empty, splitOnce?_append List.not_mem_nil] at hSplit
      cases hSplit
      exact absurd rfl hNonempty
    · rw [toList_text_exact ha] at hSplit
      rw [accepts_exact_iff ha]
      rcases splitOnce?_made (isNormal_normalizeAssembly a) n.toList with
        hBehind | ⟨before, after, -, hLower, hWithin⟩
      · rw [hBehind] at hSplit
        obtain ⟨rfl, rfl⟩ := Prod.mk.inj (Option.some.inj hSplit)
        rw [String.ofList_toList, String.ofList_toList]
      · rw [hWithin] at hSplit
        obtain ⟨rfl, rfl⟩ := Prod.mk.inj (Option.some.inj hSplit)
        exact absurd ⟨after, n.toList, rfl, hLower⟩ hNoSplit

/-- Equal specs accept the same types exactly where their text is plain. -/
theorem sameMatches_iff (text : String) : SameMatches text ↔ IsPlain text := by
  refine ⟨isPlain_of_sameMatches, fun hPlain s t hs ht hText hSame assembly name => ?_⟩
  have hOther : t.text = text := (beq_iff_text_eq.mp hSame).symm.trans hText
  by_cases hMade : ∃ start rest, splitOnce? ':' text.toList = some (start, rest) ∧ IsNormal start
  · obtain ⟨start, rest, hSplit, hNormal⟩ := hMade
    rw [Bool.eq_iff_iff, accepts_iff_of_isPlain hPlain hSplit hNormal hs hText,
      accepts_iff_of_isPlain hPlain hSplit hNormal ht hOther]
  · -- both were read from the text
    have hParse {spec : TypeSpec} (hBuilt : IsBuilt spec) (hSpec : spec.text = text) :
        parse text = .ok spec := by
      rw [← hSpec]
      refine parse_of_not_normal hBuilt fun start rest hSplit hNormal => ?_
      rw [hSpec] at hSplit
      exact hMade ⟨start, rest, hSplit, hNormal⟩
    have hEq := (hParse hs hText).symm.trans (hParse ht hOther)
    rw [Except.ok.inj hEq]

/-- An empty assembly stands for all of them and a blank one does not, but the specs have one text. -/
theorem not_sameMatches_blank :
    (exact "" "x" == exact " " "x") = true ∧ (exact "" "x").accepts "b" "x" = true ∧
      (exact " " "x").accepts "b" "x" = false ∧ ¬SameMatches ":x" := by
  have hEqual : (exact "" "x" == exact " " "x") = true := by decide
  have hAll : (exact "" "x").accepts "b" "x" = true := by decide
  have hNone : (exact " " "x").accepts "b" "x" = false := by decide
  refine ⟨hEqual, hAll, hNone, fun h => ?_⟩
  have hSame := h _ _ (.exact "" "x") (.exact " " "x") rfl hEqual "b" "x"
  rw [hAll, hNone] at hSame
  cases hSame

end TypeSpec

end RefRules
