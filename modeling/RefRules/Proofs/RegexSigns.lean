import RefRules.Proofs.RegexBrackets

/-!
# RefRules — signs in front of the closing

What `State.step` does to one sign of a pattern: groups, modes, repetitions, brackets, escapes and
literals look no further than they read, so that a sign is read alone as in front of the closing.

Main result:

* `Pattern.isReader_step` — signs are read so.
-/

namespace RefRules.Pattern

open Text

variable {m : Modes} {cs : List Char} {s : State}

/-! ## Modes -/

/-- The mode letters before a sign that ends them, with that sign. -/
def endOfModes (signs : List ModeSign) (c : Char) : Except PatternError (List ModeSign × Char) :=
  if signs.getLast? == some .negate then .error .danglingNegation else .ok (signs, c)

/-- The mode letters with one more. -/
def moreModes (signs : List ModeSign) (c : Char) : Except PatternError (List ModeSign) :=
  let sign := if c == '-' then ModeSign.negate else .letter c
  if c != '-' && !"imsUuRx".toList.contains c then .error .badMode
  else if signs.contains sign then .error .duplicateMode
  else .ok (signs ++ [sign])

/-- Mode letters as a reader. -/
def modesAt (signs : List ModeSign) (cs : List Char) :
    Except PatternError ((List ModeSign × Char) × List Char) :=
  (scanModes signs cs).map fun r => ((r.1, r.2.1), r.2.2)

/-- What follows a sign of a mode list. -/
def modesNext (signs : List ModeSign) (c : Char) (rest : List Char) :
    Except PatternError ((List ModeSign × Char) × List Char) :=
  if c == ':' || c == ')' then endOfModes signs c >>= fun ended => .ok (ended, rest)
  else moreModes signs c >>= fun signs => modesAt signs rest

theorem modesAt_cons (signs : List ModeSign) (c : Char) (rest : List Char) :
    modesAt signs (c :: rest) = modesNext signs c rest := by
  unfold modesAt modesNext
  rw [scanModes]
  split
  · unfold endOfModes
    split <;> rfl
  · unfold moreModes
    dsimp only
    generalize (if c == '-' then ModeSign.negate else .letter c) = sign
    split
    · rfl
    · split <;> rfl

theorem isReader_endOfModes (signs : List ModeSign) (c : Char) :
    IsReader fun cs => endOfModes signs c >>= fun ended => .ok (ended, cs) :=
  isReader_const (endOfModes signs c) id

theorem isReader_modesAt (signs : List ModeSign) : IsReader (modesAt signs) where
  suffix {cs x rest} h := by
    induction cs generalizing signs with
    | nil => cases h
    | cons c cs ih =>
      rw [modesAt_cons, modesNext] at h
      split at h
      · obtain ⟨ended, -, hSame⟩ := bind_eq_ok_iff.mp h
        cases hSame
        exact List.suffix_cons c _
      · obtain ⟨signs', -, hNext⟩ := bind_eq_ok_iff.mp h
        exact (ih signs' hNext).trans (List.suffix_cons c cs)
  ok {cs cs' x rest} hCont h := by
    induction cs generalizing signs cs' with
    | nil => cases h
    | cons c cs ih =>
      obtain ⟨cs', rfl, hCont'⟩ := continues_cons_iff.mp hCont
      simp only [modesAt_cons, modesNext] at h ⊢
      split at h
      · next hEnd =>
        simp only [if_pos hEnd]
        exact (isReader_endOfModes signs c).ok hCont' h
      · next hMore =>
        simp only [if_neg hMore]
        obtain ⟨signs', hSigns, hNext⟩ := bind_eq_ok_iff.mp h
        obtain ⟨rest', hNext', hRest⟩ := ih signs' hCont' hNext
        exact ⟨rest', fun b => bind_eq_ok_iff.mpr ⟨signs', hSigns, hNext' b⟩, hRest⟩

theorem isReader_modesNext (signs : List ModeSign) (c : Char) : IsReader (modesNext signs c) := by
  unfold modesNext
  split
  · exact isReader_endOfModes signs c
  · exact isReader_bind_const (moreModes signs c) isReader_modesAt

/-! ## Groups -/

/-- A name that a group can have. -/
def checkedName (name : List Char) : Except PatternError (List Char) :=
  match name with
  | [] => .error .badGroupName
  | c :: more =>
    if isNameChar true c && more.all (isNameChar false) then .ok name else .error .badGroupName

theorem scanGroupName_eq (cs : List Char) :
    scanGroupName cs =
      byLookup (splitOnce? '>') (fun name rest => checkedName name >>= fun name => .ok (name, rest))
        (fun _ => .error .badGroupName) cs := by
  unfold scanGroupName byLookup
  rw [List.span_eq_takeWhile_dropWhile, splitOnce?_eq]
  cases hDrop : cs.dropWhile (· != '>') with
  | nil => rfl
  | cons c rest =>
    obtain rfl := eq_of_dropWhile_ne hDrop
    dsimp only
    cases cs.takeWhile (· != '>') with
    | nil => rfl
    | cons c more =>
      simp only [checkedName]
      split <;> rfl

theorem isReader_scanGroupName : IsReader scanGroupName := by
  rw [funext scanGroupName_eq]
  exact isReader_byLookup (isLookup_splitOnce? (by decide) (by decide))
    (fun name => isReader_const (checkedName name) id) (isReader_error .badGroupName)

/-- Opens a group with a name that no other group has. -/
def State.named (s : State) (name : List Char) : Except PatternError State :=
  if s.names.contains name then .error .duplicateGroupName
  else .ok ({ s with names := name :: s.names }.openGroup s.modes)

theorem openNamed_eq (s : State) (cs : List Char) :
    s.openNamed cs = scanGroupName cs >>= fun r => s.named r.1 >>= fun s => .ok (s, r.2) := by
  unfold State.openNamed State.named
  refine bind_congr fun r => ?_
  dsimp only
  split <;> rfl

theorem isReader_openNamed (s : State) : IsReader s.openNamed := by
  rw [funext (openNamed_eq s)]
  exact IsReader.bind isReader_scanGroupName fun name => isReader_const (s.named name) id

/-- What mode letters do, by the sign behind them. -/
def State.withModes (s : State) (signs : List ModeSign) (stop : Char) : Except PatternError State :=
  if stop == ':' then .ok (s.openGroup (s.modes.apply signs))
  else if signs.isEmpty then .error .repetitionMissing
  else .ok ({ s with modes := s.modes.apply signs }.pushItem { regex := .empty, repeatable := false })

/-- A name of a group, unless it is a look behind. -/
def State.nameSign (s : State) (cs : List Char) : Except PatternError (State × List Char) :=
  match cs with
  | [] => s.openNamed []
  | c :: rest => if c == '=' || c == '!' then .error .lookAround else s.openNamed (c :: rest)

/-- A name of a group behind its letter. -/
def State.letterSign (s : State) (cs : List Char) : Except PatternError (State × List Char) :=
  match cs with
  | [] => .error .badMode
  | c :: rest => if c == '<' then s.openNamed rest else .error .badMode

/-- What follows a group's question mark. -/
def State.questionNext (s : State) (c : Char) (rest : List Char) :
    Except PatternError (State × List Char) :=
  if c = '=' ∨ c = '!' then .error .lookAround
  else if c = '<' then s.nameSign rest
  else if c = 'P' then s.letterSign rest
  else modesNext [] c rest >>= fun r => s.withModes r.1.1 r.1.2 >>= fun s => .ok (s, r.2)

/-- What follows an opening parenthesis, behind blanks. -/
def State.groupSign (s : State) (cs : List Char) : Except PatternError (State × List Char) :=
  match cs with
  | [] => .ok (s.openGroup s.modes, [])
  | c :: rest =>
    if c == '?' then
      match rest with
      | [] => .error .unclosedGroup
      | d :: rest => s.questionNext d rest
    else .ok (s.openGroup s.modes, c :: rest)

theorem scanModes_then_withModes (s : State) (c : Char) (rest : List Char) :
    (scanModes [] (c :: rest) >>= fun r =>
      s.withModes r.1 r.2.1 >>= fun s => .ok (s, r.2.2) : Except PatternError (State × List Char)) =
      modesNext [] c rest >>= fun r => s.withModes r.1.1 r.1.2 >>= fun s => .ok (s, r.2) := by
  rw [← modesAt_cons, modesAt]
  cases scanModes [] (c :: rest) <;> rfl

theorem scanGroup_eq (s : State) (cs : List Char) : s.scanGroup cs = s.groupSign (s.modes.skip cs) := by
  unfold State.scanGroup
  split
  · next h => simp [h, State.groupSign, State.questionNext]
  · next h => simp [h, State.groupSign, State.questionNext]
  · next h => simp [h, State.groupSign, State.questionNext, State.nameSign]
  · next h => simp [h, State.groupSign, State.questionNext, State.nameSign]
  · next h => simp [h, State.groupSign, State.questionNext, State.letterSign]
  · next rest hEqual hNot hSkip =>
    -- a name, since no look behind begins so
    rw [hSkip]
    cases rest with
    | nil => rfl
    | cons c rest =>
      have hName : ¬(c = '=' ∨ c = '!') := by
        rintro (rfl | rfl)
        · exact hEqual rest rfl
        · exact hNot rest rfl
      simp [State.groupSign, State.questionNext, State.nameSign, hName]
  · next rest hEqual hNot _ _ hLetter hName hSkip =>
    rw [hSkip]
    cases rest with
    | nil => rfl
    | cons c rest =>
      have hLook : ¬(c = '=' ∨ c = '!') := by
        rintro (rfl | rfl)
        · exact hEqual rest rfl
        · exact hNot rest rfl
      have hAngle : c ≠ '<' := by
        rintro rfl
        exact hName rest rfl
      simp only [State.groupSign, beq_self_eq_true, if_true, State.questionNext, if_neg hLook,
        if_neg hAngle, List.isEmpty_cons, Bool.false_eq_true, if_false]
      split
      · next hP =>
        -- the letter alone is no mode
        subst hP
        cases rest with
        | nil => rfl
        | cons d rest =>
          have hd : d ≠ '<' := by
            rintro rfl
            exact hLetter rest rfl
          rw [State.letterSign, if_neg (by simpa using hd)]
          rfl
      · rw [← scanModes_then_withModes]
        refine bind_congr fun r => ?_
        unfold State.withModes
        split
        · rfl
        · split <;> rfl
  · next hQuestion =>
    cases hSkip : s.modes.skip cs with
    | nil => rfl
    | cons c rest =>
      have hc : c ≠ '?' := by
        rintro rfl
        exact hQuestion rest hSkip
      simp [State.groupSign, hc]

theorem isReader_scanGroup (s : State) : IsReader s.scanGroup := by
  have hLetter : IsReader s.letterSign :=
    isReader_headIf (p := (· == '<')) rfl (fun _ _ => isReader_openNamed s) (isReader_error .badMode)
  have hName : IsReader s.nameSign :=
    isReader_headIf (p := fun c => c == '=' || c == '!') rfl
      (fun _ _ => isReader_error .lookAround) (isReader_openNamed s)
  have hQuestion (c : Char) : IsReader (s.questionNext c) := by
    unfold State.questionNext
    repeat' split
    · exact isReader_error .lookAround
    · exact hName
    · exact hLetter
    · exact IsReader.bind (isReader_modesNext [] c) fun r =>
        isReader_const (s.withModes r.1 r.2) id
  rw [funext (scanGroup_eq s)]
  exact IsReader.comp (isReader_headIf (p := (· == '?')) rfl
    (fun _ _ => isReader_first hQuestion .unclosedGroup)
    (isReader_ok (s.openGroup s.modes))) s.modes.isSkip_skip

/-! ## Repetitions -/

theorem scanDigits_succ (m : Modes) (fuel : Nat) (cs : List Char) :
    (.ok (scanDigits m (fuel + 1) cs) : Except PatternError (List Char × List Char)) =
      match cs with
      | [] => .ok ([], [])
      | c :: rest =>
        if c.isDigit then
          .ok (scanDigits m fuel (m.skip rest)) >>= fun r => .ok (c :: r.1, r.2)
        else .ok ([], c :: rest) := by
  cases cs with
  | nil => rfl
  | cons c rest => cases hc : c.isDigit <;> simp [scanDigits, hc, ok_bind]

theorem isReader_scanDigits (m : Modes) (fuel : Nat) :
    IsReader fun cs => .ok (scanDigits m fuel cs) := by
  induction fuel with
  | zero => exact isReader_ok []
  | succ fuel ih =>
    rw [funext (scanDigits_succ m fuel)]
    exact isReader_headIf (by decide)
      (fun c _ => IsReader.bind (ih.comp m.isSkip_skip) fun digits => isReader_ok (c :: digits))
      (isReader_ok [])

theorem scanDigits_fuel {n n' : Nat} (hn : cs.length ≤ n) (hn' : cs.length ≤ n') :
    scanDigits m n cs = scanDigits m n' cs := by
  refine fuel_congr List.length (f := fun n (_ : Unit) => scanDigits m n) (fun n _ cs hNone => ?_)
    (fun n n' _ cs h => ?_) () hn hn'
  · obtain rfl := List.length_eq_zero_iff.mp hNone
    cases n <;> rfl
  · cases cs with
    | nil => rfl
    | cons c rest =>
      have hSkip := (m.isSkip_skip.suffix rest).length_le
      rw [scanDigits, scanDigits, h () (m.skip rest) (Nat.lt_succ_of_le hSkip)]

/-- The count that digits stand for. -/
def countOf (digits : List Char) : Except PatternError (Option Nat) :=
  if digits.isEmpty then .ok none
  else if decimalValue digits < Numeral.limit32 then .ok (some (decimalValue digits))
  else .error .badRepetition

/-- A count from its digits on. -/
def countAt (m : Modes) (cs : List Char) : Except PatternError (Option Nat × List Char) :=
  .ok (scanDigits m cs.length cs) >>= fun r =>
    countOf r.1 >>= fun n? => .ok (n?, m.skip (r.2.dropWhile isBlank))

theorem scanCount_eq (m : Modes) (cs : List Char) :
    scanCount m cs = countAt m (cs.dropWhile isBlank) := by
  unfold scanCount countAt countOf
  rw [ok_bind]
  dsimp only
  split
  · rfl
  · split <;> rfl

theorem isReader_scanCount (m : Modes) : IsReader (scanCount m) := by
  have hBlank : IsSkip (·.dropWhile isBlank) := isSkip_dropWhile (.inl (by decide))
  have hEnd (digits : List Char) :
      IsReader fun cs => countOf digits >>= fun n? => .ok (n?, m.skip (cs.dropWhile isBlank)) :=
    ((isReader_const (countOf digits) id).comp m.isSkip_skip).comp hBlank
  rw [funext (scanCount_eq m)]
  exact IsReader.comp (IsReader.bind (isReader_fuel List.length (isReader_scanDigits m)
    fun cs fuel hFuel => by rw [scanDigits_fuel hFuel le_rfl]) hEnd) hBlank

/-- The counts of a repetition that has a greatest number. -/
def boundedBy (n : Nat) (max? : Option Nat) : Except PatternError (Nat × Option Nat) :=
  match max? with
  | some k => if n ≤ k then .ok (n, some k) else .error .badRepetition
  | none => .error .badRepetition

/-- The closing brace behind the greatest number of repetitions. -/
def maxEnd (n : Nat) (max? : Option Nat) (cs : List Char) :
    Except PatternError ((Nat × Option Nat) × List Char) :=
  match cs with
  | [] => .error .badRepetition
  | c :: rest =>
    if c == '\x7d' then boundedBy n max? >>= fun counts => .ok (counts, rest)
    else .error .badRepetition

/-- What follows the comma between the counts. -/
def maxSign (m : Modes) (n : Nat) (cs : List Char) :
    Except PatternError ((Nat × Option Nat) × List Char) :=
  match cs with
  | [] => scanCount m [] >>= fun r => maxEnd n r.1 r.2
  | c :: rest =>
    if c == '\x7d' then .ok ((n, none), rest)
    else scanCount m (c :: rest) >>= fun r => maxEnd n r.1 r.2

/-- What follows the least number of repetitions. -/
def minNext (m : Modes) (n : Nat) (c : Char) (rest : List Char) :
    Except PatternError ((Nat × Option Nat) × List Char) :=
  if c = '\x7d' then .ok ((n, some n), rest)
  else if c = ',' then maxSign m n (m.skip rest)
  else .error .badRepetition

/-- What follows the first count of a repetition. -/
def minSign (m : Modes) (min? : Option Nat) (cs : List Char) :
    Except PatternError ((Nat × Option Nat) × List Char) :=
  match min? with
  | none => .error .badRepetition
  | some n =>
    match cs with
    | [] => .error .badRepetition
    | c :: rest => minNext m n c rest

/-- The counts of a repetition as a reader. -/
def countsAt (m : Modes) (cs : List Char) : Except PatternError ((Nat × Option Nat) × List Char) :=
  (scanCounts m cs).map fun r => ((r.1, r.2.1), r.2.2)

/-- The greatest number of repetitions and the closing brace, as they are read. -/
theorem scanCount_then_maxEnd (m : Modes) (n : Nat) (cs : List Char) :
    (scanCount m cs >>= fun r =>
        (match r.1, r.2 with
          | some k, '\x7d' :: rest => if n ≤ k then .ok (n, some k, rest) else .error .badRepetition
          | _, _ => .error .badRepetition :
          Except PatternError (Nat × Option Nat × List Char))).map
      (fun r => ((r.1, r.2.1), r.2.2)) = scanCount m cs >>= fun r => maxEnd n r.1 r.2 := by
  cases scanCount m cs with
  | error e => rfl
  | ok r =>
    obtain ⟨max?, rest⟩ := r
    cases rest with
    | nil => cases max? <;> rfl
    | cons c rest =>
      rw [ok_bind, ok_bind]
      by_cases hc : c = '\x7d'
      · subst hc
        cases max? with
        | none => rfl
        | some k =>
          simp only [maxEnd, beq_self_eq_true, if_true, boundedBy]
          split <;> rfl
      · cases max? with
        | none => simp [maxEnd, hc, Except.map]
        | some k => simp [maxEnd, hc, Except.map]

theorem countsAt_eq (m : Modes) (cs : List Char) :
    countsAt m cs = scanCount m (m.skip cs) >>= fun r => minSign m r.1 r.2 := by
  unfold countsAt scanCounts
  cases scanCount m (m.skip cs) with
  | error e => rfl
  | ok r =>
    obtain ⟨min?, rest⟩ := r
    cases min? with
    | none => rfl
    | some n =>
      cases rest with
      | nil => rfl
      | cons c rest =>
        by_cases hBrace : c = '\x7d'
        · subst hBrace
          rfl
        · by_cases hComma : c = ','
          · subst hComma
            simp only [ok_bind, minSign, minNext, if_neg hBrace, if_true, maxSign]
            cases m.skip rest with
            | nil => exact scanCount_then_maxEnd m n []
            | cons d rest =>
              by_cases hd : d = '\x7d'
              · subst hd
                rfl
              · dsimp only
                rw [if_neg (by simpa using hd), ← scanCount_then_maxEnd]
                congr 1
                split
                · next hEq => exact absurd (List.cons.inj hEq).1 hd
                · rfl
          · simp [ok_bind, minSign, minNext, hBrace, hComma, Except.map]

theorem isReader_countsAt (m : Modes) : IsReader (countsAt m) := by
  have hMaxEnd (n : Nat) (max? : Option Nat) : IsReader (maxEnd n max?) :=
    isReader_headIf (p := (· == '\x7d')) rfl
      (k := fun _ rest => boundedBy n max? >>= fun counts => .ok (counts, rest))
      (g := fun _ => .error .badRepetition)
      (fun _ _ => isReader_const (boundedBy n max?) id) (isReader_error .badRepetition)
  have hMax (n : Nat) : IsReader (maxSign m n) :=
    isReader_headIf (p := (· == '\x7d')) rfl (k := fun _ rest => .ok ((n, none), rest))
      (g := fun cs => scanCount m cs >>= fun r => maxEnd n r.1 r.2)
      (fun _ _ => isReader_ok (n, none)) (IsReader.bind (isReader_scanCount m) (hMaxEnd n))
  have hNext (n : Nat) (c : Char) : IsReader (minNext m n c) := by
    unfold minNext
    split
    · exact isReader_ok (n, some n)
    · split
      · exact (hMax n).comp m.isSkip_skip
      · exact isReader_error .badRepetition
  have hMin (min? : Option Nat) : IsReader (minSign m min?) := by
    cases min? with
    | none => exact isReader_error .badRepetition
    | some n => exact isReader_first (hNext n) .badRepetition
  rw [funext (countsAt_eq m)]
  exact IsReader.bind ((isReader_scanCount m).comp m.isSkip_skip) hMin

theorem isSkip_skipLazySign : IsSkip skipLazySign where
  suffix cs := by
    unfold skipLazySign
    split
    · exact List.suffix_cons _ _
    · exact List.suffix_refl _
  continues {cs cs'} hCont := by
    cases cs with
    | nil => rcases continues_nil_iff.mp hCont with rfl | rfl <;> exact hCont
    | cons c cs =>
      obtain ⟨cs', rfl, hCont'⟩ := continues_cons_iff.mp hCont
      by_cases hc : c = '?'
      · subst hc
        exact hCont'
      · have hSame (rest : List Char) : skipLazySign (c :: rest) = c :: rest := by
          unfold skipLazySign
          split
          · next hEq => exact absurd (List.cons.inj hEq).1 hc
          · rfl
        simpa only [hSame] using hCont

/-! ## Steps -/

/-- A step that changes the state alone. -/
theorem isReader_stateOnly (outcome : Except PatternError State) :
    IsReader fun cs => outcome.map fun s => (s, cs) := by
  cases outcome with
  | error e => exact isReader_error e
  | ok s => exact isReader_ok s

theorem countedStep_eq (s : State) (cs : List Char) :
    s.step '\x7b' cs = countsAt s.modes cs >>= fun r => s.repeatLast r.1.1 r.1.2 >>= fun s =>
      .ok (s, skipLazySign (s.modes.skip r.2)) := by
  unfold countsAt
  show (scanCounts s.modes cs >>= _) = _
  cases scanCounts s.modes cs <;> rfl

theorem escapeStep_eq (s : State) (cs : List Char) :
    s.step '\\' cs = Atom.scanEscape s.modes cs >>= fun r => r.1.toRegex s.modes >>= fun regex =>
      .ok (s.pushItem { regex := regex }, r.2) :=
  rfl

/-- A sign is read alone as in front of the closing. -/
theorem isReader_step (s : State) (c : Char) : IsReader (s.step c) := by
  have hRepeat (min : Nat) (max : Option Nat) : IsReader fun cs =>
      (s.repeatLast min max).map fun s => (s, skipLazySign cs) :=
    (isReader_stateOnly (s.repeatLast min max)).comp isSkip_skipLazySign
  -- counts and escapes are read by more than one reader
  by_cases hCounts : c = '\x7b'
  · subst hCounts
    rw [funext (countedStep_eq s)]
    exact IsReader.bind (isReader_countsAt s.modes) fun counts =>
      isReader_bind_const (s.repeatLast counts.1 counts.2) fun s' =>
        ((isReader_ok s').comp isSkip_skipLazySign).comp s'.modes.isSkip_skip
  by_cases hEscape : c = '\\'
  · subst hEscape
    rw [funext (escapeStep_eq s)]
    exact IsReader.bind (isReader_scanEscape s.modes) fun a =>
      isReader_const (a.toRegex s.modes) fun regex => s.pushItem { regex := regex }
  unfold State.step
  split
  · exact isReader_scanGroup s
  · exact isReader_stateOnly s.closeGroup
  · exact isReader_ok s.nextBranch
  · exact IsReader.bind (Bracket.isReader_scan s.modes) (k := fun nested rest => .ok (s.pushItem
      { regex := .one nested.cls, depth := nested.depth }, rest))
      fun nested => isReader_ok _
  · exact hRepeat 0 (some 1)
  · exact hRepeat 0 none
  · exact hRepeat 1 none
  · exact absurd rfl hCounts
  · exact absurd rfl hEscape
  · exact isReader_const s.modes.dot fun cls => s.pushItem { regex := .one cls }
  · exact isReader_ok _
  · exact isReader_ok _
  · exact isReader_const ((Atom.literal c).toRegex s.modes) fun regex =>
      s.pushItem { regex := regex }

end RefRules.Pattern
