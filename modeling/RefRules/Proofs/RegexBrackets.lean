import RefRules.Proofs.RegexEscapes

/-!
# RefRules — brackets in front of the closing

A bracket that is closed in a pattern is read alone as in front of the closing: its members, ranges and
operators look no further than they read, but for a hyphen, which looks at the sign behind it.

Main results:

* `Pattern.Bracket.isReader_scanMember` — members are read so;
* `Pattern.Bracket.isReader_scan` — brackets are read so.
-/

namespace RefRules.Pattern.Bracket

open Text

variable {m : Modes} {cs : List Char}

/-! ## Looks inside of brackets -/

/-- The operator that two characters make. -/
def operatorOf? (c d : Char) : Option ClassOp :=
  if c = '&' ∧ d = '&' then some .intersection
  else if c = '-' ∧ d = '-' then some .difference
  else if c = '~' ∧ d = '~' then some .symmetricDifference
  else none

theorem scan?_cons_cons (c d : Char) (rest : List Char) :
    ClassOp.scan? (c :: d :: rest) = (operatorOf? c d).map fun op => (op, rest) := by
  unfold ClassOp.scan? operatorOf?
  split
  · next hEq =>
    cases hEq
    rfl
  · next hEq =>
    cases hEq
    rfl
  · next hEq =>
    cases hEq
    rfl
  · next h₁ h₂ h₃ =>
    rw [if_neg fun h => h₁ rest (by rw [h.1, h.2]), if_neg fun h => h₂ rest (by rw [h.1, h.2]),
      if_neg fun h => h₃ rest (by rw [h.1, h.2]), Option.map_none]

theorem length_lt_of_scan? {op : ClassOp} {rest : List Char} (h : ClassOp.scan? cs = some (op, rest)) :
    rest.length < cs.length := by
  match cs with
  | [] | [_] => simp [ClassOp.scan?] at h
  | c :: d :: cs =>
    rw [scan?_cons_cons, Option.map_eq_some_iff] at h
    obtain ⟨op, -, hRest⟩ := h
    cases hRest
    simp

theorem isLookup_scan? : IsLookup ClassOp.scan? where
  suffix {text x rest} h := by
    match text with
    | [] | [_] => simp [ClassOp.scan?] at h
    | c :: d :: cs =>
      rw [scan?_cons_cons, Option.map_eq_some_iff] at h
      obtain ⟨op, -, hRest⟩ := h
      cases hRest
      exact (List.suffix_cons d rest).trans (List.suffix_cons c _)
  some {text text' x rest} hCont h := by
    match text with
    | [] | [_] => simp [ClassOp.scan?] at h
    | c :: d :: cs =>
      obtain ⟨_, rfl, hSecond⟩ := continues_cons_iff.mp hCont
      obtain ⟨cs', rfl, hRest⟩ := continues_cons_iff.mp hSecond
      rw [scan?_cons_cons, Option.map_eq_some_iff] at h
      obtain ⟨op, hOp, hSame⟩ := h
      cases hSame
      exact ⟨cs', fun b => by rw [scan?_cons_cons, hOp, Option.map_some], hRest⟩
  none {text text'} hCont h b := by
    match text with
    | [] => rcases continues_nil_iff.mp hCont with rfl | rfl <;> rfl
    | [c] =>
      obtain ⟨rest, rfl, hRest⟩ := continues_cons_iff.mp hCont
      rcases continues_nil_iff.mp hRest with rfl | rfl
      · exact h
      · simp [closing, scan?_cons_cons, operatorOf?]
    | c :: d :: cs =>
      obtain ⟨_, rfl, hSecond⟩ := continues_cons_iff.mp hCont
      obtain ⟨cs', rfl, -⟩ := continues_cons_iff.mp hSecond
      rw [scan?_cons_cons, Option.map_eq_none_iff] at h ⊢
      exact h

/-- What follows the name of a named class. -/
def asciiEnd? (negated : Bool) (name : List Char) (cs : List Char) :
    Option ((CharClass × Bool) × List Char) :=
  match cs with
  | [] => none
  | c :: rest =>
    if c == ']' then
      ((asciiClass? (String.ofList name)).map fun cls => (cls, negated)).map fun named => (named, rest)
    else none

/-- A named class from its name on. -/
def asciiNamed? (negated : Bool) (cs : List Char) : Option ((CharClass × Bool) × List Char) :=
  (splitOnce? ':' cs).bind fun r => asciiEnd? negated r.1 r.2

theorem isLookup_asciiNamed? (negated : Bool) : IsLookup (asciiNamed? negated) :=
  (isLookup_splitOnce? (by decide) (by decide)).bind fun name =>
    isLookup_headIf (p := (· == ']')) rfl
      (isLookup_const ((asciiClass? (String.ofList name)).map fun cls => (cls, negated))) isLookup_none

/-- The negation of a named class, and the text from its name on. -/
def asciiStart : List Char → Bool × List Char
  | '^' :: rest => (true, rest)
  | rest => (false, rest)

theorem asciiStart_of_ne {d : Char} (hd : d ≠ '^') (rest : List Char) :
    asciiStart (d :: rest) = (false, d :: rest) := by
  unfold asciiStart
  split
  · next hEq => exact absurd (List.cons.inj hEq).1 hd
  · rfl

/-- A named class behind its negation. -/
def asciiTail? (start : Bool × List Char) : Option (CharClass × Bool × List Char) :=
  match start.2.span (· != ':') with
  | (name, ':' :: ']' :: rest) =>
    (asciiClass? (String.ofList name)).map fun cls => (cls, start.1, rest)
  | _ => none

theorem map_asciiTail? (start : Bool × List Char) :
    (asciiTail? start).map (fun r => ((r.1, r.2.1), r.2.2)) = asciiNamed? start.1 start.2 := by
  unfold asciiTail?
  rw [List.span_eq_takeWhile_dropWhile, asciiNamed?, splitOnce?_eq]
  cases hDrop : start.2.dropWhile (· != ':') with
  | nil => rfl
  | cons c after =>
    obtain rfl := eq_of_dropWhile_ne hDrop
    cases after with
    | nil => rfl
    | cons d rest =>
      by_cases hd : d = ']'
      · subst hd
        simp [asciiEnd?, Option.map_map, Function.comp_def]
      · simp [asciiEnd?, hd]

/-- The named class at the head of the text after a bracket, with whether it is negated. -/
def asciiAt? (cs : List Char) : Option ((CharClass × Bool) × List Char) :=
  (Bracket.scanAsciiClass? cs).map fun r => ((r.1, r.2.1), r.2.2)

theorem asciiAt?_colon (cs : List Char) :
    asciiAt? (':' :: cs) = asciiNamed? (asciiStart cs).1 (asciiStart cs).2 :=
  map_asciiTail? (asciiStart cs)

theorem asciiAt?_eq (cs : List Char) :
    asciiAt? cs =
      match cs with
      | [] => none
      | c :: cs =>
        if c == ':' then
          match cs with
          | [] => asciiNamed? false []
          | d :: rest => if d == '^' then asciiNamed? true rest else asciiNamed? false (d :: rest)
        else none := by
  cases cs with
  | nil => rfl
  | cons c cs =>
    by_cases hc : c = ':'
    · subst hc
      rw [asciiAt?_colon]
      cases cs with
      | nil => rfl
      | cons d rest =>
        by_cases hd : d = '^'
        · subst hd
          rfl
        · simp [asciiStart_of_ne hd, hd]
    · simp [asciiAt?, Bracket.scanAsciiClass?, hc]

theorem isLookup_asciiAt? : IsLookup asciiAt? := by
  rw [funext asciiAt?_eq]
  exact isLookup_headIf (p := (· == ':')) rfl
    (isLookup_headIf (p := (· == '^')) rfl (isLookup_asciiNamed? true) (isLookup_asciiNamed? false))
    isLookup_none

/-! ## The start of a bracket -/

theorem scanHyphens_succ (m : Modes) (fuel : Nat) (u : Members) (cs : List Char) :
    (.ok (scanHyphens m (fuel + 1) u cs) : Except PatternError (Members × List Char)) =
      match cs with
      | [] => .ok (u, [])
      | c :: rest =>
        if c == '-' then .ok (scanHyphens m fuel (u.pushChar '-') (m.skip rest))
        else .ok (u, c :: rest) := by
  cases cs with
  | nil => rfl
  | cons c rest =>
    by_cases hc : c = '-'
    · subst hc
      rfl
    · simp only [beq_false_of_ne hc, Bool.false_eq_true, if_false]
      unfold scanHyphens
      split
      · next hEq => exact absurd (List.cons.inj hEq).1 hc
      · rfl

theorem isReader_scanHyphens (m : Modes) (fuel : Nat) (u : Members) :
    IsReader fun cs => .ok (scanHyphens m fuel u cs) := by
  induction fuel generalizing u with
  | zero => exact isReader_ok u
  | succ fuel ih =>
    rw [funext (scanHyphens_succ m fuel u)]
    exact isReader_headIf (p := (· == '-')) rfl
      (k := fun _ rest => .ok (scanHyphens m fuel (u.pushChar '-') (m.skip rest)))
      (g := fun cs => .ok (u, cs)) (fun _ _ => (ih _).comp m.isSkip_skip) (isReader_ok u)

theorem scanHyphens_fuel {n n' : Nat} (u : Members) (hn : cs.length ≤ n) (hn' : cs.length ≤ n') :
    scanHyphens m n u cs = scanHyphens m n' u cs := by
  refine fuel_congr List.length (f := scanHyphens m) (fun n u cs hNone => ?_)
    (fun n n' u cs h => ?_) u hn hn'
  · obtain rfl := List.length_eq_zero_iff.mp hNone
    cases n <;> rfl
  · -- one step of the hyphens is stated for the reader whose results they are
    refine Except.ok.inj ((scanHyphens_succ m n u cs).trans
      (.trans ?_ (scanHyphens_succ m n' u cs).symm))
    cases cs with
    | nil => rfl
    | cons c rest =>
      have hSkip := (m.isSkip_skip.suffix rest).length_le
      dsimp only
      rw [h (u.pushChar '-') (m.skip rest) (Nat.lt_succ_of_le hSkip)]

/-- The end of the start of a bracket: a closing bracket where no member is. -/
def openEnd (m : Modes) (negated : Bool) (members : Members) (cs : List Char) :
    Except PatternError ((Bool × Members) × List Char) :=
  match cs with
  | [] => .ok ((negated, members), [])
  | c :: rest =>
    if members.count == 0 && c == ']' then .ok ((negated, members.pushChar ']'), m.skip rest)
    else .ok ((negated, members), c :: rest)

/-- The start of a bracket behind its negation. -/
def openFrom (m : Modes) (negated : Bool) (cs : List Char) :
    Except PatternError ((Bool × Members) × List Char) :=
  .ok (scanHyphens m cs.length {} cs) >>= fun r => openEnd m negated r.1 r.2

/-- The negation of a bracket, and the text behind it. -/
def openStart (m : Modes) : List Char → Bool × List Char
  | '^' :: rest => (true, m.skip rest)
  | rest => (false, rest)

theorem openStart_of_ne {c : Char} (hc : c ≠ '^') (rest : List Char) :
    openStart m (c :: rest) = (false, c :: rest) := by
  unfold openStart
  split
  · next hEq => exact absurd (List.cons.inj hEq).1 hc
  · rfl

/-- The start of a bracket behind its negation, with the negation. -/
def openTail (m : Modes) (start : Bool × List Char) : Bool × Members × List Char :=
  let (members, rest) := scanHyphens m start.2.length {} start.2
  match members.count, rest with
  | 0, ']' :: rest => (start.1, members.pushChar ']', m.skip rest)
  | _, rest => (start.1, members, rest)

theorem ok_openTail (m : Modes) (start : Bool × List Char) :
    .ok (((openTail m start).1, (openTail m start).2.1), (openTail m start).2.2) =
      openFrom m start.1 start.2 := by
  rw [openFrom, ok_bind, openTail]
  generalize scanHyphens m start.2.length {} start.2 = r
  obtain ⟨members, rest⟩ := r
  cases rest with
  | nil => cases hCount : members.count <;> simp [openEnd, hCount]
  | cons c rest =>
    by_cases hc : c = ']'
    · subst hc
      cases hCount : members.count <;> simp [openEnd, hCount]
    · cases hCount : members.count <;> simp [openEnd, hCount, hc]

/-- The start of a bracket, as a reader. -/
def openAt (m : Modes) (cs : List Char) : Except PatternError ((Bool × Members) × List Char) :=
  .ok (((scanOpen m cs).1, (scanOpen m cs).2.1), (scanOpen m cs).2.2)

theorem openAt_eq_openFrom (m : Modes) (cs : List Char) :
    openAt m cs = openFrom m (openStart m (m.skip cs)).1 (openStart m (m.skip cs)).2 :=
  ok_openTail m (openStart m (m.skip cs))

theorem openAt_eq (m : Modes) (cs : List Char) :
    openAt m cs =
      match m.skip cs with
      | [] => openFrom m false []
      | c :: rest =>
        if c == '^' then openFrom m true (m.skip rest) else openFrom m false (c :: rest) := by
  rw [openAt_eq_openFrom]
  cases m.skip cs with
  | nil => rfl
  | cons c rest =>
    by_cases hc : c = '^'
    · subst hc
      rfl
    · simp [openStart_of_ne hc, hc]

theorem isReader_openAt (m : Modes) : IsReader (openAt m) := by
  have hFrom (negated : Bool) : IsReader (openFrom m negated) := by
    refine IsReader.bind (isReader_fuel List.length (isReader_scanHyphens m · {})
      fun cs fuel hFuel => by rw [scanHyphens_fuel {} hFuel le_rfl]) fun members => ?_
    exact isReader_headIf (p := fun c => members.count == 0 && c == ']') (by simp)
      (k := fun _ rest => .ok ((negated, members.pushChar ']'), m.skip rest))
      (g := fun cs => .ok ((negated, members), cs))
      (fun _ _ => (isReader_ok (negated, members.pushChar ']')).comp m.isSkip_skip)
      (isReader_ok (negated, members))
  rw [funext (openAt_eq m)]
  exact (isReader_headIf (p := (· == '^')) rfl (k := fun _ rest => openFrom m true (m.skip rest))
    (fun _ _ => (hFrom true).comp m.isSkip_skip) (hFrom false)).comp m.isSkip_skip

/-! ## Members -/

/-- What follows the first character of an atom. -/
def atomNext (m : Modes) (c : Char) (rest : List Char) : Except PatternError (Atom × List Char) :=
  if c = '\\' then Atom.scanEscape m rest else .ok (.literal c, rest)

theorem scanAtom_eq (m : Modes) (cs : List Char) :
    scanAtom m cs =
      match cs with
      | [] => .error .unclosedClass
      | c :: rest => atomNext m c rest := by
  cases cs with
  | nil => rfl
  | cons c rest =>
    by_cases hc : c = '\\'
    · subst hc
      rfl
    · simp only [atomNext, hc, if_false]
      unfold scanAtom
      split
      · next hEq => cases hEq
      · next hEq => exact absurd (List.cons.inj hEq).1 hc
      · next hEq =>
        cases hEq
        rfl

theorem isReader_atomNext (m : Modes) (c : Char) : IsReader (atomNext m c) := by
  unfold atomNext
  split
  · exact isReader_scanEscape m
  · exact isReader_ok (Atom.literal c)

theorem isReader_scanAtom (m : Modes) : IsReader (scanAtom m) := by
  rw [funext (scanAtom_eq m)]
  exact isReader_first (isReader_atomNext m) .unclosedClass

theorem length_lt_of_scanAtom {a : Atom} {rest : List Char} (h : scanAtom m cs = .ok (a, rest)) :
    rest.length < cs.length := by
  rw [scanAtom_eq] at h
  cases cs with
  | nil => cases h
  | cons c cs => exact Nat.lt_succ_of_le ((isReader_atomNext m c).suffix h).length_le

/-- The look past a hyphen sees the same in front of the closing, or nothing alone. -/
theorem peekPastBlanks_closing (inComment b : Bool) (cs : List Char) :
    peekPastBlanks inComment (cs ++ closing b) = peekPastBlanks inComment cs ∨
      peekPastBlanks inComment cs = none ∧ peekPastBlanks inComment (cs ++ closing b) = some ')' := by
  induction cs generalizing inComment with
  | nil => exact .inr ⟨rfl, by cases inComment <;> rfl⟩
  | cons c cs ih =>
    rw [List.cons_append, peekPastBlanks, peekPastBlanks]
    split
    · exact ih inComment
    · split
      · exact ih true
      · exact .inl rfl

theorem opensRange_eq {cs' : Bool → List Char} (h : Continues cs cs') (b : Bool) :
    opensRange m (cs' b) = opensRange m cs := by
  rcases h with rfl | rfl
  · rfl
  · unfold opensRange
    split
    · rcases peekPastBlanks_closing false b cs with hSame | ⟨hAlone, hBehind⟩
      · rw [hSame]
      · rw [hAlone, hBehind]
        rfl
    · cases cs <;> rfl

/-- A hyphen that makes a range is at the head of the text. -/
def startsRange (m : Modes) (cs : List Char) : Bool :=
  match cs with
  | [] => false
  | c :: rest => c == '-' && opensRange m rest

theorem startsRange_eq {cs' : Bool → List Char} (h : Continues cs cs') (b : Bool) :
    startsRange m (cs' b) = startsRange m cs := by
  cases cs with
  | nil => rcases continues_nil_iff.mp h with rfl | rfl <;> rfl
  | cons c cs =>
    obtain ⟨rest, rfl, hRest⟩ := continues_cons_iff.mp h
    simp only [startsRange, opensRange_eq hRest]

/-- The range between two atoms. -/
def rangeOf (m : Modes) (first last : Atom) : Except PatternError Nested := do
  let low ← first.toChar m
  let high ← last.toChar m
  if low ≤ high then return { cls := fun c => low ≤ c && c ≤ high }
  else .error .badClassRange

/-- A range from the atom behind its hyphen on. -/
def rangeEnd (m : Modes) (first : Atom) (cs : List Char) : Except PatternError (Nested × List Char) :=
  scanAtom m (m.skip cs) >>= fun r => rangeOf m first r.1 >>= fun member => .ok (member, r.2)

/-- A member that is no range, unless the text ends at it. -/
def single (m : Modes) (first : Atom) (cs : List Char) : Except PatternError (Nested × List Char) :=
  if cs.isEmpty then .error .unclosedClass
  else memberOf m first >>= fun member => .ok (member, cs)

/-- A member from the sign behind its first atom on. -/
def memberEnd (m : Modes) (first : Atom) (cs : List Char) : Except PatternError (Nested × List Char) :=
  if startsRange m cs then
    match cs with
    | [] => .error .unclosedClass
    | _ :: rest => rangeEnd m first rest
  else single m first cs

theorem scanMember_eq (m : Modes) (cs : List Char) :
    scanMember m cs = scanAtom m cs >>= fun r => memberEnd m r.1 (m.skip r.2) := by
  unfold scanMember
  refine bind_congr fun r => ?_
  dsimp only
  cases m.skip r.2 with
  | nil => rfl
  | cons c after =>
    by_cases hc : c = '-'
    · subst hc
      cases hOpens : opensRange m after with
      | true =>
        simp only [hOpens, if_true, memberEnd, startsRange, beq_self_eq_true, Bool.true_and, rangeEnd,
          rangeOf, bind_assoc]
        refine bind_congr fun last => bind_congr fun low => bind_congr fun high => ?_
        split <;> rfl
      | false =>
        simp only [hOpens, Bool.false_eq_true, if_false, memberEnd, startsRange, Bool.and_false]
        rfl
    · have hRange : startsRange m (c :: after) = false := by simp [startsRange, hc]
      rw [memberEnd, hRange, if_neg Bool.false_ne_true]
      split
      · next hEq => cases hEq
      · next hEq => exact absurd (List.cons.inj hEq).1 hc
      · rfl

theorem isReader_rangeEnd (m : Modes) (first : Atom) : IsReader (rangeEnd m first) :=
  IsReader.bind ((isReader_scanAtom m).comp m.isSkip_skip) fun last =>
    isReader_const (rangeOf m first last) id

theorem isReader_single (m : Modes) (first : Atom) : IsReader (single m first) where
  suffix {cs x rest} h := by
    unfold single at h
    split at h
    · cases h
    · exact (isReader_const (memberOf m first) id).suffix h
  ok {cs cs' x rest} hCont h := by
    unfold single at h ⊢
    split at h
    · cases h
    · next hEmpty =>
      have hEmpty' (b : Bool) : ¬(cs' b).isEmpty = true := by
        rcases hCont with rfl | rfl
        · exact hEmpty
        · simp [closing]
      simp only [if_neg (hEmpty' _)]
      exact (isReader_const (memberOf m first) id).ok hCont h

theorem isReader_memberEnd (m : Modes) (first : Atom) : IsReader (memberEnd m first) :=
  isReader_if startsRange_eq (isReader_first (fun _ => isReader_rangeEnd m first) .unclosedClass)
    (isReader_single m first)

theorem isReader_scanMember (m : Modes) : IsReader (scanMember m) := by
  rw [funext (scanMember_eq m)]
  exact IsReader.bind (isReader_scanAtom m) fun first =>
    (isReader_memberEnd m first).comp m.isSkip_skip

theorem length_lt_of_scanMember {member : Nested} {rest : List Char}
    (h : scanMember m cs = .ok (member, rest)) : rest.length < cs.length := by
  rw [scanMember_eq] at h
  obtain ⟨⟨first, after⟩, hAtom, hEnd⟩ := bind_eq_ok_iff.mp h
  have hRest := ((isReader_memberEnd m first).suffix hEnd).trans (m.isSkip_skip.suffix after)
  exact hRest.length_le.trans_lt (length_lt_of_scanAtom hAtom)

/-! ## Signs inside of brackets -/

/-- Reading on with other open brackets and members. -/
abbrev Next : Type :=
  List BracketFrame → Members → List Char → Except PatternError (Nested × List Char)

variable {next next' : Next} {frames : List BracketFrame} {members : Members}

/-- An operator or a member, and what follows it. -/
def partSign (m : Modes) (next : Next) (frames : List BracketFrame) (members : Members) :
    List Char → Except PatternError (Nested × List Char) :=
  byLookup ClassOp.scan?
    (fun op => next (.operator op (applyPending m frames members.toNested).2 ::
      (applyPending m frames members.toNested).1) {})
    fun cs => scanMember m cs >>= fun r => next frames (members.push r.1) r.2

/-- What follows a closing bracket. -/
def closeSign (m : Modes) (next : Next) (frames : List BracketFrame) (members : Members)
    (cs : List Char) : Except PatternError (Nested × List Char) :=
  match (applyPending m frames members.toNested).1 with
  | .bracket negated outer :: frames' =>
    m.finish negated (applyPending m frames members.toNested).2.cls >>= fun cls =>
      let closed : Nested :=
        ⟨cls, (applyPending m frames members.toNested).2.depth + 1⟩
      if frames'.isEmpty then .ok (closed, cs) else next frames' (outer.push closed) cs
  | _ => .error .unclosedClass

/-- What follows an opening bracket: a named class or the start of a bracket. -/
def openSign (m : Modes) (next : Next) (frames : List BracketFrame) (members : Members) :
    List Char → Except PatternError (Nested × List Char) :=
  byLookup asciiAt?
    (fun named cs =>
      m.finish named.2 named.1 >>= fun cls => next frames (members.push { cls := cls }) cs)
    fun cs => openAt m cs >>= fun r => next (.bracket r.1.1 members :: frames) r.1.2 r.2

/-- A closing bracket, an operator or a member, and what follows it. -/
def innerSign (m : Modes) (next : Next) (frames : List BracketFrame) (members : Members)
    (cs : List Char) : Except PatternError (Nested × List Char) :=
  match cs with
  | [] => partSign m next frames members []
  | c :: rest =>
    if c == ']' then closeSign m next frames members rest
    else partSign m next frames members (c :: rest)

/-- One sign inside of brackets, and what follows it. -/
def sign (m : Modes) (next : Next) (frames : List BracketFrame) (members : Members)
    (cs : List Char) : Except PatternError (Nested × List Char) :=
  match cs with
  | [] => innerSign m next frames members []
  | c :: rest =>
    if c == '[' then openSign m next frames members rest
    else innerSign m next frames members (c :: rest)

theorem scanRest_succ (m : Modes) (fuel : Nat) (frames : List BracketFrame) (members : Members)
    (cs : List Char) :
    scanRest m (fuel + 1) frames members cs = sign m (scanRest m fuel) frames members (m.skip cs) := by
  rw [scanRest.eq_def]
  dsimp only
  cases m.skip cs with
  | nil => rfl
  | cons c rest =>
    by_cases hOpen : c = '['
    · subst hOpen
      simp only [sign, beq_self_eq_true, if_true, openSign, byLookup, asciiAt?]
      cases scanAsciiClass? rest <;> rfl
    · rw [sign, if_neg (by simpa using hOpen), innerSign]
      by_cases hClose : c = ']'
      · subst hClose
        simp only [beq_self_eq_true, if_true, closeSign]
        rfl
      · rw [if_neg (by simpa using hClose), partSign, byLookup]
        split
        · next hEq => cases hEq
        · next hEq => exact absurd (List.cons.inj hEq).1 hOpen
        · next hEq => exact absurd (List.cons.inj hEq).1 hClose
        · cases ClassOp.scan? (c :: rest) <;> rfl

theorem isReader_sign (hNext : ∀ frames members, IsReader (next frames members)) :
    IsReader (sign m next frames members) := by
  have hPart : IsReader (partSign m next frames members) :=
    isReader_byLookup isLookup_scan? (fun op => hNext _ _)
      (IsReader.bind (isReader_scanMember m) fun member => hNext _ _)
  have hClose : IsReader (closeSign m next frames members) := by
    unfold closeSign
    split
    · next negated outer frames' _ =>
      refine isReader_bind_const (m.finish negated _) fun cls => ?_
      dsimp only
      split
      · exact isReader_ok _
      · exact hNext _ _
    · exact isReader_error .unclosedClass
  have hOpen : IsReader (openSign m next frames members) :=
    isReader_byLookup isLookup_asciiAt?
      (fun named => isReader_bind_const (m.finish named.2 named.1) fun cls => hNext _ _)
      (IsReader.bind (isReader_openAt m) fun start =>
        hNext (.bracket start.1 members :: frames) start.2)
  exact isReader_headIf (p := (· == '[')) rfl (fun _ _ => hOpen)
    (isReader_headIf (p := (· == ']')) rfl (fun _ _ => hClose) hPart)

/-- What follows a sign is read from a shorter text. -/
theorem sign_congr
    (h : ∀ frames members rest, rest.length < cs.length →
      next frames members rest = next' frames members rest) :
    sign m next frames members cs = sign m next' frames members cs := by
  have hPart : partSign m next frames members cs = partSign m next' frames members cs := by
    unfold partSign byLookup
    split
    · next r hScan => exact h _ _ _ (length_lt_of_scan? hScan)
    · exact bind_congr_of_ok fun r hMember => h _ _ _ (length_lt_of_scanMember hMember)
  cases cs with
  | nil => exact hPart
  | cons c rest =>
    have hLess {rest' : List Char} (hRest : rest' <:+ rest) : rest'.length < (c :: rest).length :=
      Nat.lt_succ_of_le hRest.length_le
    unfold sign innerSign
    dsimp only
    split
    · unfold openSign byLookup
      split
      · next r hNamed =>
        exact bind_congr_of_ok fun cls _ => h _ _ _ (hLess (isLookup_asciiAt?.suffix hNamed))
      · exact bind_congr_of_ok fun r hOpened => h _ _ _ (hLess ((isReader_openAt m).suffix hOpened))
    · split
      · unfold closeSign
        split
        · refine bind_congr_of_ok fun cls _ => ?_
          dsimp only
          split
          · rfl
          · exact h _ _ _ (hLess (List.suffix_refl rest))
        · rfl
      · exact hPart

theorem isReader_scanRest (m : Modes) (fuel : Nat) (frames : List BracketFrame)
    (members : Members) : IsReader (scanRest m fuel frames members) := by
  induction fuel generalizing frames members with
  | zero => exact isReader_error .unclosedClass
  | succ fuel ih =>
    rw [funext (scanRest_succ m fuel frames members)]
    exact (isReader_sign ih).comp m.isSkip_skip

theorem scanRest_fuel {n n' : Nat} (hn : cs.length < n) (hn' : cs.length < n') :
    scanRest m n frames members cs = scanRest m n' frames members cs := by
  refine fuel_congr_succ
    (f := fun n (opened : List BracketFrame × Members) => scanRest m n opened.1 opened.2)
    (fun n n' opened cs h => ?_) (frames, members) hn hn'
  rw [scanRest_succ, scanRest_succ]
  have hSkip := (m.isSkip_skip.suffix cs).length_le
  exact sign_congr fun frames members rest hLess => h (frames, members) rest (hLess.trans_le hSkip)

theorem scan_eq (m : Modes) (cs : List Char) :
    scan m cs = openAt m cs >>= fun r => scanRest m (r.2.length + 1) [.bracket r.1.1 {}] r.1.2 r.2 :=
  rfl

theorem isReader_scan (m : Modes) : IsReader (scan m) := by
  rw [funext (scan_eq m)]
  exact IsReader.bind (isReader_openAt m) fun start =>
    isReader_fuel (fun cs => cs.length + 1) (isReader_scanRest m · [.bracket start.1 {}] start.2)
      fun cs fuel hFuel => scanRest_fuel (by omega) (by omega)

end RefRules.Pattern.Bracket
