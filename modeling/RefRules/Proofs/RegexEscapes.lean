import RefRules.Proofs.RegexReaders

/-!
# RefRules — escapes in front of the closing

Escapes are read alone as in front of the closing: hexadecimal digits, properties and names in braces
look no further than they read. A word boundary looks past a brace behind it, where there is a fault if
the text ends.

Main result:

* `Pattern.isReader_scanEscape` — escapes are read so.
-/

namespace RefRules.Pattern

open Text

variable {m : Modes} {cs : List Char}

/-! ## Hexadecimal escapes -/

theorem isReader_scanHexDigits (m : Modes) (count value : Nat) :
    IsReader (scanHexDigits m count value) := by
  induction count generalizing value with
  | zero => exact isReader_ok value
  | succ count ih =>
    refine (isReader_first (fun c => ?_) .badHexadecimal).comp m.isSkip_skip
    cases hexValue? c with
    | none => exact isReader_error .badHexadecimal
    | some d => exact ih (16 * value + d)

/-- What follows a hexadecimal digit or the closing brace. -/
def hexBraceNext (m : Modes) (fuel : Nat) (value? : Option Nat) (c : Char) (rest : List Char) :
    Except PatternError (Nat × List Char) :=
  if c = '\x7d' then
    match value? with
    | some value => .ok (value, rest)
    | none => .error .badHexadecimal
  else
    match hexValue? c with
    | some d => scanHexBrace m fuel (some (16 * value?.getD 0 + d)) rest
    | none => .error .badHexadecimal

theorem scanHexBrace_succ (m : Modes) (fuel : Nat) (value? : Option Nat) (cs : List Char) :
    scanHexBrace m (fuel + 1) value? cs =
      match m.skip cs with
      | [] => .error .badHexadecimal
      | c :: rest => hexBraceNext m fuel value? c rest := by
  rw [scanHexBrace.eq_def]
  dsimp only
  cases m.skip cs with
  | nil => rfl
  | cons c rest =>
    by_cases hc : c = '\x7d'
    · subst hc
      cases value? <;> rfl
    · cases hValue : hexValue? c <;> simp [hexBraceNext, hc, hValue]

theorem isReader_scanHexBrace (m : Modes) (fuel : Nat) (value? : Option Nat) :
    IsReader (scanHexBrace m fuel value?) := by
  induction fuel generalizing value? with
  | zero => exact isReader_error .badHexadecimal
  | succ fuel ih =>
    rw [funext (scanHexBrace_succ m fuel value?)]
    refine (isReader_first (k := hexBraceNext m fuel value?) (fun c => ?_)
      .badHexadecimal).comp m.isSkip_skip
    unfold hexBraceNext
    split
    · cases value? with
      | none => exact isReader_error .badHexadecimal
      | some value => exact isReader_ok value
    · cases hexValue? c with
      | none => exact isReader_error .badHexadecimal
      | some d => exact ih _

theorem scanHexBrace_fuel {n n' : Nat} (value? : Option Nat) (hn : cs.length < n)
    (hn' : cs.length < n') : scanHexBrace m n value? cs = scanHexBrace m n' value? cs := by
  refine fuel_congr_succ (f := scanHexBrace m) (fun n n' value? cs h => ?_) value? hn hn'
  rw [scanHexBrace_succ, scanHexBrace_succ]
  cases hSkip : m.skip cs with
  | nil => rfl
  | cons c rest =>
    simp only [hexBraceNext]
    split
    · rfl
    · split
      · exact h _ rest (Modes.length_lt_of_skip hSkip)
      · rfl

/-- A hexadecimal escape in braces. -/
def hexBraces (m : Modes) (rest : List Char) : Except PatternError (Atom × List Char) := do
  let (value, rest) ← scanHexBrace m (rest.length + 1) none rest
  return (.literal (← charOfCode value), rest)

/-- A hexadecimal escape of so many digits. -/
def hexDigits (m : Modes) (digits : Nat) (rest : List Char) :
    Except PatternError (Atom × List Char) := do
  let (value, rest) ← scanHexDigits m digits 0 rest
  let c ← charOfCode value
  return (if digits = 2 then .byte value else .literal c, rest)

theorem scanHex_eq (m : Modes) (digits : Nat) (cs : List Char) :
    scanHex m digits cs =
      match m.skip cs with
      | [] => hexDigits m digits []
      | c :: rest => if c == '\x7b' then hexBraces m rest else hexDigits m digits (c :: rest) := by
  unfold scanHex
  cases m.skip cs with
  | nil => rfl
  | cons c rest =>
    by_cases hc : c = '\x7b'
    · subst hc
      rfl
    · simp only [beq_false_of_ne hc, Bool.false_eq_true, if_false]
      split
      · next hEq => exact absurd (List.cons.inj hEq).1 hc
      · rfl

theorem isReader_scanHex (m : Modes) (digits : Nat) : IsReader (scanHex m digits) := by
  rw [funext (scanHex_eq m digits)]
  refine (isReader_headIf (p := (· == '\x7b')) rfl (k := fun _ => hexBraces m)
    (g := hexDigits m digits) (fun _ _ => ?_) ?_).comp m.isSkip_skip
  · exact IsReader.bind
      (isReader_fuel (fun cs => cs.length + 1) (isReader_scanHexBrace m · none)
        fun cs fuel hFuel => scanHexBrace_fuel none (by omega) (by omega))
      fun value => isReader_const (charOfCode value) Atom.literal
  · exact IsReader.bind (isReader_scanHexDigits m digits 0) fun value =>
      isReader_const (charOfCode value) fun c => if digits = 2 then Atom.byte value else Atom.literal c

/-! ## Properties -/

/-- A name in braces, or a fault. -/
def braceName (m : Modes) (fuel : Nat) (cs : List Char) :
    Except PatternError (List Char × List Char) :=
  match scanBraceName m fuel cs with
  | none => .error .badEscape
  | some r => .ok r

/-- What follows a character of a name, or the closing brace. -/
def braceNameNext (m : Modes) (fuel : Nat) (c : Char) (rest : List Char) :
    Except PatternError (List Char × List Char) :=
  if c = '\x7d' then .ok ([], rest)
  else braceName m fuel rest >>= fun r => .ok (c :: r.1, r.2)

theorem braceName_succ (m : Modes) (fuel : Nat) (cs : List Char) :
    braceName m (fuel + 1) cs =
      match m.skip cs with
      | [] => .error .badEscape
      | c :: rest => braceNameNext m fuel c rest := by
  unfold braceName
  rw [scanBraceName.eq_def]
  dsimp only
  cases m.skip cs with
  | nil => rfl
  | cons c rest =>
    by_cases hc : c = '\x7d'
    · subst hc
      rfl
    · simp only [braceNameNext, hc, if_false, braceName]
      cases scanBraceName m fuel rest <;> rfl

theorem isReader_braceName (m : Modes) (fuel : Nat) : IsReader (braceName m fuel) := by
  induction fuel with
  | zero => exact isReader_error .badEscape
  | succ fuel ih =>
    rw [funext (braceName_succ m fuel)]
    refine (isReader_first (k := braceNameNext m fuel) (fun c => ?_) .badEscape).comp m.isSkip_skip
    unfold braceNameNext
    split
    · exact isReader_ok []
    · exact IsReader.bind ih fun name => isReader_ok (c :: name)

theorem braceName_fuel {n n' : Nat} (hn : cs.length < n) (hn' : cs.length < n') :
    braceName m n cs = braceName m n' cs := by
  refine fuel_congr_succ (f := fun n (_ : Unit) => braceName m n) (fun n n' _ cs h => ?_) () hn hn'
  rw [braceName_succ, braceName_succ]
  cases hSkip : m.skip cs with
  | nil => rfl
  | cons c rest =>
    simp only [braceNameNext]
    rw [h () rest (Modes.length_lt_of_skip hSkip)]

/-- The property that a name in braces stands for. -/
def bracedProperty (m : Modes) (negated : Bool) (rest : List Char) :
    Except PatternError (Atom × List Char) :=
  braceName m (rest.length + 1) rest >>= fun r =>
    propertyOfText r.1 >>= fun cls => .ok (.property cls negated, r.2)

/-- What follows the letter of a property escape. -/
def propertyNext (m : Modes) (negated : Bool) (c : Char) (rest : List Char) :
    Except PatternError (Atom × List Char) :=
  if c = '\x7b' then bracedProperty m negated rest
  else if c = '\\' then .error .unknownProperty
  else propertyOfText [c] >>= fun cls => .ok (.property cls negated, rest)

theorem scanProperty_eq (m : Modes) (negated : Bool) (cs : List Char) :
    scanProperty m negated cs =
      match m.skip cs with
      | [] => .error .badEscape
      | c :: rest => propertyNext m negated c rest := by
  unfold scanProperty
  cases m.skip cs with
  | nil => rfl
  | cons c rest =>
    by_cases hBrace : c = '\x7b'
    · subst hBrace
      simp only [propertyNext, if_true, bracedProperty, braceName]
      cases scanBraceName m (rest.length + 1) rest <;> rfl
    · by_cases hSlash : c = '\\'
      · subst hSlash
        rfl
      · simp only [propertyNext, hBrace, hSlash, if_false]
        rfl

theorem isReader_scanProperty (m : Modes) (negated : Bool) : IsReader (scanProperty m negated) := by
  rw [funext (scanProperty_eq m negated)]
  refine (isReader_first (k := propertyNext m negated) (fun c => ?_) .badEscape).comp m.isSkip_skip
  unfold propertyNext
  split
  · exact IsReader.bind
      (isReader_fuel (fun cs => cs.length + 1) (isReader_braceName m)
        fun cs fuel hFuel => braceName_fuel (by omega) (by omega))
      fun name => isReader_const (propertyOfText name) fun cls => Atom.property cls negated
  · split
    · exact isReader_error .unknownProperty
    · exact isReader_const (propertyOfText [c]) fun cls => Atom.property cls negated

/-! ## Word boundaries -/

theorem boundaryName_succ (m : Modes) (fuel : Nat) (cs : List Char) :
    (.ok (scanBoundaryName m (fuel + 1) cs) : Except PatternError (List Char × List Char)) =
      match cs with
      | [] => .ok ([], [])
      | c :: rest =>
        if isBoundaryNameChar c then
          .ok (scanBoundaryName m fuel (m.skip rest)) >>= fun r => .ok (c :: r.1, r.2)
        else .ok ([], c :: rest) := by
  cases cs with
  | nil => rfl
  | cons c rest => cases hc : isBoundaryNameChar c <;> simp [scanBoundaryName, hc, ok_bind]

theorem isReader_boundaryName (m : Modes) (fuel : Nat) :
    IsReader fun cs => .ok (scanBoundaryName m fuel cs) := by
  induction fuel with
  | zero => exact isReader_ok []
  | succ fuel ih =>
    rw [funext (boundaryName_succ m fuel)]
    exact isReader_headIf (by decide)
      (fun c _ => IsReader.bind (ih.comp m.isSkip_skip) fun name => isReader_ok (c :: name))
      (isReader_ok [])

theorem scanBoundaryName_fuel {n n' : Nat} (hn : cs.length < n) (hn' : cs.length < n') :
    scanBoundaryName m n cs = scanBoundaryName m n' cs := by
  refine fuel_congr_succ (f := fun n (_ : Unit) => scanBoundaryName m n) (fun n n' _ cs h => ?_)
    () hn hn'
  cases cs with
  | nil => rfl
  | cons c rest =>
    have hSkip := (m.isSkip_skip.suffix rest).length_le
    rw [scanBoundaryName, scanBoundaryName, h () (m.skip rest) (Nat.lt_succ_of_le hSkip)]

/-- The boundary of a name. -/
def boundaryOf (m : Modes) (name : List Char) : Except PatternError Look :=
  match String.ofList name with
  | "start" => .ok (.wordStart m.word)
  | "end" => .ok (.wordEnd m.word)
  | "start-half" => .ok (.noWordBefore m.word)
  | "end-half" => .ok (.noWordAfter m.word)
  | _ => .error .badWordBoundary

/-- The closing brace behind the name of a boundary. -/
def boundaryEnd (m : Modes) (name rest : List Char) : Except PatternError (Look × List Char) :=
  match rest with
  | [] => .error .badWordBoundary
  | c :: rest =>
    if c == '\x7d' then boundaryOf m name >>= fun look => .ok (look, rest) else .error .badWordBoundary

/-- A boundary with a name, from the name on. -/
def namedBoundary (m : Modes) (cs : List Char) : Except PatternError (Look × List Char) :=
  .ok (scanBoundaryName m (cs.length + 1) cs) >>= fun r => boundaryEnd m r.1 r.2

theorem isReader_namedBoundary (m : Modes) : IsReader (namedBoundary m) :=
  IsReader.bind
    (isReader_fuel (fun cs => cs.length + 1) (isReader_boundaryName m)
      fun cs fuel hFuel => by
        rw [scanBoundaryName_fuel (by omega) (by omega : cs.length < cs.length + 1)])
    fun name => isReader_headIf (p := (· == '\x7d')) rfl
      (k := fun _ rest => boundaryOf m name >>= fun look => .ok (look, rest))
      (g := fun _ => .error .badWordBoundary)
      (fun _ _ => isReader_const (boundaryOf m name) id) (isReader_error .badWordBoundary)

theorem scanWordBoundary_eq (m : Modes) (cs : List Char) :
    scanWordBoundary m cs =
      match cs with
      | [] => .ok (.wordBoundary m.word, [])
      | c :: inner =>
        if c = '\x7b' then
          match m.skip inner with
          | [] => .error .badWordBoundary
          | d :: rest =>
            if isBoundaryNameChar d then namedBoundary m (d :: rest)
            else .ok (.wordBoundary m.word, c :: inner)
        else .ok (.wordBoundary m.word, c :: inner) := by
  unfold scanWordBoundary
  cases cs with
  | nil => rfl
  | cons c inner =>
    by_cases hc : c = '\x7b'
    · subst hc
      simp only [if_true]
      cases m.skip inner with
      | nil => rfl
      | cons d rest =>
        cases hName : isBoundaryNameChar d with
        | false => simp [hName]
        | true =>
          simp only [hName, Bool.not_true, Bool.false_eq_true, if_false, if_true]
          show _ = boundaryEnd m (scanBoundaryName m (rest.length + 2) (d :: rest)).1
            (scanBoundaryName m (rest.length + 2) (d :: rest)).2
          obtain ⟨name, rest'⟩ := scanBoundaryName m (rest.length + 2) (d :: rest)
          cases rest' with
          | nil => rfl
          | cons e rest' =>
            by_cases he : e = '\x7d'
            · subst he
              simp only [boundaryEnd, beq_self_eq_true, if_true, boundaryOf]
              split <;> simp_all [bind, Except.bind]
            · simp [boundaryEnd, he]
    · simp [hc]

/-- A boundary is followed alone and in front of the closing by what it leaves as it is, or by a name
in braces; or by a brace that nothing follows alone, which is a fault. -/
theorem scanWordBoundary_cases (m : Modes) {cs : List Char} {cs' : Bool → List Char}
    (hCont : Continues cs cs') :
    (scanWordBoundary m cs = .ok (.wordBoundary m.word, cs) ∧
        ∀ b, scanWordBoundary m (cs' b) = .ok (.wordBoundary m.word, cs' b)) ∨
      (∃ named named', named <:+ cs ∧ Continues named named' ∧
        scanWordBoundary m cs = namedBoundary m named ∧
        ∀ b, scanWordBoundary m (cs' b) = namedBoundary m (named' b)) ∨
      scanWordBoundary m cs = .error .badWordBoundary := by
  simp only [scanWordBoundary_eq]
  cases cs with
  | nil => exact .inl ⟨rfl, fun b => by rcases continues_nil_iff.mp hCont with rfl | rfl <;> rfl⟩
  | cons c inner =>
    obtain ⟨inner', rfl, hInner⟩ := continues_cons_iff.mp hCont
    dsimp only
    by_cases hc : c = '\x7b'
    · subst hc
      simp only [if_true]
      have hSkips := m.isSkip_skip.continues hInner
      cases hSkip : m.skip inner with
      | nil => exact .inr (.inr rfl)
      | cons d after =>
        rw [hSkip] at hSkips
        obtain ⟨after', hSkip', hAfter⟩ := continues_cons_iff.mp hSkips
        have hSkipAt (b : Bool) : m.skip (inner' b) = d :: after' b := congrFun hSkip' b
        simp only [hSkipAt]
        by_cases hd : isBoundaryNameChar d = true
        · have hNamed := m.isSkip_skip.suffix inner
          rw [hSkip] at hNamed
          exact .inr (.inl ⟨d :: after, fun b => d :: after' b,
            hNamed.trans (List.suffix_cons _ inner), hAfter.cons d, if_pos hd, fun b => if_pos hd⟩)
        · exact .inl ⟨if_neg hd, fun b => if_neg hd⟩
    · exact .inl ⟨if_neg hc, fun b => if_neg hc⟩

theorem isReader_scanWordBoundary (m : Modes) : IsReader (scanWordBoundary m) where
  suffix {cs x rest} h := by
    rcases scanWordBoundary_cases m (.refl cs) with
      ⟨hPlain, -⟩ | ⟨named, -, hNamed, -, hEq, -⟩ | hFault
    · rw [hPlain] at h
      cases h
      exact List.suffix_refl _
    · rw [hEq] at h
      exact ((isReader_namedBoundary m).suffix h).trans hNamed
    · rw [hFault] at h
      cases h
  ok {cs cs' x rest} hCont h := by
    rcases scanWordBoundary_cases m hCont with
      ⟨hPlain, hPlain'⟩ | ⟨named, named', -, hNamed, hEq, hEq'⟩ | hFault
    · rw [hPlain] at h
      cases h
      exact ⟨cs', hPlain', hCont⟩
    · rw [hEq] at h
      simp only [hEq']
      exact (isReader_namedBoundary m).ok hNamed h
    · rw [hFault] at h
      cases h

/-! ## Escapes -/

/-- The atom of a letter behind a backslash that needs no more than the letter. -/
def letterAtom (m : Modes) (c : Char) : Except PatternError Atom :=
  if isEscapable c then .ok (.literal c)
  else
    match shorthand? c, controlChar? c, assertion? m c with
    | some a, _, _ => .ok a
    | _, some d, _ => .ok (.literal d)
    | _, _, some look => .ok (.assertion look)
    | _, _, _ => .error .badEscape

/-- What follows the letter behind a backslash. -/
def escapeNext (m : Modes) (c : Char) (rest : List Char) : Except PatternError (Atom × List Char) :=
  if c.isDigit then .error .backreference
  else if c == 'x' then scanHex m 2 rest
  else if c == 'u' then scanHex m 4 rest
  else if c == 'U' then scanHex m 8 rest
  else if c == 'p' then scanProperty m false rest
  else if c == 'P' then scanProperty m true rest
  else if c == 'b' then (scanWordBoundary m rest).map fun r => (.assertion r.1, r.2)
  else letterAtom m c >>= fun a => .ok (a, rest)

theorem scanEscape_eq (m : Modes) (cs : List Char) :
    Atom.scanEscape m cs =
      match cs with
      | [] => .error .badEscape
      | c :: rest => escapeNext m c rest := by
  unfold Atom.scanEscape
  cases cs with
  | nil => rfl
  | cons c rest =>
    have hLetter : (if isEscapable c then .ok (.literal c, rest)
        else
          match shorthand? c, controlChar? c, assertion? m c with
          | some a, _, _ => .ok (a, rest)
          | _, some d, _ => .ok (.literal d, rest)
          | _, _, some look => .ok (.assertion look, rest)
          | _, _, _ => .error .badEscape : Except PatternError (Atom × List Char)) =
        letterAtom m c >>= fun a => .ok (a, rest) := by
      unfold letterAtom
      split
      · rfl
      · cases shorthand? c <;> cases controlChar? c <;> cases assertion? m c <;> rfl
    dsimp only [escapeNext]
    -- past the seven tests of the letter only what a plain letter stands for is left
    iterate 7 refine if_congr Iff.rfl rfl ?_
    exact hLetter

theorem isReader_scanEscape (m : Modes) : IsReader (Atom.scanEscape m) := by
  rw [funext (scanEscape_eq m)]
  refine isReader_first (k := escapeNext m) (fun c => ?_) .badEscape
  unfold escapeNext
  repeat' split
  · exact isReader_error .backreference
  · exact isReader_scanHex m 2
  · exact isReader_scanHex m 4
  · exact isReader_scanHex m 8
  · exact isReader_scanProperty m false
  · exact isReader_scanProperty m true
  · exact (isReader_scanWordBoundary m).map Atom.assertion
  · exact isReader_const (letterAtom m c) id

end RefRules.Pattern
