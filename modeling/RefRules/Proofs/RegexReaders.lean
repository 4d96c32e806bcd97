import RefRules.Proofs.PathText
import RefRules.Regex.Parser

/-!
# RefRules — what stands behind a pattern

A pattern in a group is read with the closing of the group behind it, and perhaps an anchor. The readers
of its parts look no further than they read, but for single signs that the closing does not begin with:
what they read alone they read in front of the closing. Comments are the exception, which hide what
follows them.

Main definitions and results:

* `Pattern.Continues` — a text, and the same text with the closing behind it or hidden;
* `Pattern.IsReader` — what is read alone is read in front of the closing, and leaves an end of the
  text;
* `Pattern.isReader_first`, `Pattern.isReader_headIf`, `Pattern.isReader_byLookup` — reading by what
  stands first;
* `Pattern.fuel_congr` — enough fuel is as good as more.
-/

namespace RefRules.Pattern

open Text

/-! ## Texts in front of the closing -/

/-- What stands behind a pattern in a group: the parenthesis that closes the group, and perhaps the
anchor at the end of a text. -/
def closing (anchored : Bool) : List Char :=
  ')' :: if anchored then ['$'] else []

theorem mem_closing {b : Bool} {c : Char} (h : c ∈ closing b) : c = ')' ∨ c = '$' := by
  cases b with
  | false => exact .inl (List.mem_singleton.mp h)
  | true => simpa [closing] using h

/-- The text, or the text with the closing behind it, in both forms of the closing. -/
def Continues (cs : List Char) (cs' : Bool → List Char) : Prop :=
  cs' = (fun _ => cs) ∨ cs' = fun b => cs ++ closing b

theorem Continues.refl (cs : List Char) : Continues cs fun _ => cs :=
  .inl rfl

theorem continues_closing (cs : List Char) : Continues cs fun b => cs ++ closing b :=
  .inr rfl

theorem continues_nil_iff {cs : Bool → List Char} :
    Continues [] cs ↔ cs = (fun _ => []) ∨ cs = closing :=
  Iff.rfl

theorem continues_cons_iff {c : Char} {cs : List Char} {cs' : Bool → List Char} :
    Continues (c :: cs) cs' ↔ ∃ rest, cs' = (fun b => c :: rest b) ∧ Continues cs rest := by
  constructor
  · rintro (rfl | rfl)
    · exact ⟨fun _ => cs, rfl, .refl cs⟩
    · exact ⟨fun b => cs ++ closing b, rfl, continues_closing cs⟩
  · rintro ⟨rest, rfl, rfl | rfl⟩
    · exact .refl _
    · exact continues_closing (c :: cs)

theorem Continues.cons {cs : List Char} {cs' : Bool → List Char} (h : Continues cs cs') (c : Char) :
    Continues (c :: cs) fun b => c :: cs' b :=
  continues_cons_iff.mpr ⟨cs', rfl, h⟩

/-! ## Skipping -/

/-- A way to leave out the start of a text that ends at the closing at the latest. -/
structure IsSkip (skip : List Char → List Char) : Prop where
  suffix : ∀ cs, skip cs <:+ cs
  continues : ∀ {cs cs'}, Continues cs cs' → Continues (skip cs) fun b => skip (cs' b)

/-- What characters are left out is seen at the closing parenthesis, or all of the closing is. -/
theorem isSkip_dropWhile {p : Char → Bool} (hp : p ')' = false ∨ p ')' = true ∧ p '$' = true) :
    IsSkip (·.dropWhile p) where
  suffix cs := List.dropWhile_suffix _
  continues := by
    rintro cs _ (rfl | rfl)
    · exact .refl _
    · induction cs with
      | nil =>
        rcases hp with hp | ⟨hp, hp'⟩
        · exact .inr (funext fun b => List.dropWhile_cons_of_neg (by simp [hp]))
        · refine .inl (funext fun b => List.dropWhile_eq_nil_iff.mpr fun c hc => ?_)
          rcases mem_closing hc with rfl | rfl
          · exact hp
          · exact hp'
      | cons c cs ih =>
        simp only [List.cons_append, List.dropWhile_cons]
        split
        · exact ih
        · exact continues_closing (c :: cs)

/-- A start that ends before the text does is the same in front of the closing. -/
theorem Continues.takeWhile_eq {p : Char → Bool} {cs : List Char} {cs' : Bool → List Char}
    (h : Continues cs cs') (hStop : cs.dropWhile p ≠ []) (b : Bool) :
    (cs' b).takeWhile p = cs.takeWhile p := by
  rcases h with rfl | rfl
  · rfl
  · rw [List.takeWhile_append, if_neg]
    intro hLength
    have hAll := (List.takeWhile_prefix p).eq_of_length hLength
    rw [List.takeWhile_eq_self_iff] at hAll
    exact hStop (List.dropWhile_eq_nil_iff.mpr hAll)

/-- A comment that ends does so in front of the closing; one that does not hides it. -/
theorem continues_afterComment (cs : List Char) :
    Continues (afterComment cs) fun b => afterComment (cs ++ closing b) := by
  induction cs with
  | nil =>
    -- there is no end of a line in the closing
    have hHidden (rest : List Char) (h : ∀ c ∈ rest, c ≠ '\n') : afterComment rest = [] := by
      induction rest with
      | nil => rfl
      | cons c rest ih =>
        rw [afterComment, if_neg (by simpa using h c List.mem_cons_self)]
        exact ih fun d hd => h d (List.mem_cons_of_mem c hd)
    refine .inl (funext fun b => hHidden (closing b) fun c hc => ?_)
    rcases mem_closing hc with rfl | rfl <;> decide
  | cons c cs ih =>
    simp only [List.cons_append, afterComment]
    split
    · exact continues_closing cs
    · exact ih

theorem suffix_afterComment (cs : List Char) : afterComment cs <:+ cs := by
  induction cs with
  | nil => exact List.suffix_refl []
  | cons c cs ih =>
    rw [afterComment]
    split
    · exact List.suffix_cons c cs
    · exact ih.trans (List.suffix_cons c cs)

theorem skipBlanks_nil : skipBlanks [] = [] := by
  rw [skipBlanks.eq_def]

theorem skipBlanks_cons_eq (c : Char) (cs : List Char) :
    skipBlanks (c :: cs) =
      if isBlank c then skipBlanks cs
      else if c == '#' then skipBlanks (afterComment cs)
      else c :: cs := by
  rw [skipBlanks.eq_def]

theorem skipBlanks_cons {c : Char} (cs : List Char) (hBlank : isBlank c = false) (hSign : c ≠ '#') :
    skipBlanks (c :: cs) = c :: cs := by
  rw [skipBlanks_cons_eq, if_neg (by simp [hBlank]), if_neg (by simpa using hSign)]

theorem isSkip_skipBlanks : IsSkip skipBlanks where
  suffix cs := by
    induction cs using skipBlanks.induct with
    | case1 => rw [skipBlanks_nil]
    | case2 c cs hBlank ih =>
      rw [skipBlanks_cons_eq, if_pos hBlank]
      exact ih.trans (List.suffix_cons c cs)
    | case3 c cs hBlank hComment ih =>
      rw [skipBlanks_cons_eq, if_neg hBlank, if_pos hComment]
      exact (ih.trans (suffix_afterComment cs)).trans (List.suffix_cons c cs)
    | case4 c cs hBlank hComment => rw [skipBlanks_cons_eq, if_neg hBlank, if_neg hComment]
  continues := by
    rintro cs _ (rfl | rfl)
    · exact .refl _
    · induction cs using skipBlanks.induct with
      | case1 =>
        -- the closing begins with neither a blank nor a comment
        rw [skipBlanks_nil]
        exact .inr (funext fun b => skipBlanks_cons _ (by decide) (by decide))
      | case2 c cs hBlank ih =>
        simp only [List.cons_append, skipBlanks_cons_eq, if_pos hBlank]
        exact ih
      | case3 c cs hBlank hComment ih =>
        simp only [List.cons_append, skipBlanks_cons_eq, if_neg hBlank, if_pos hComment]
        -- the comment ends, or hides the closing as well
        rcases continues_afterComment cs with hHidden | hShown
        · simp only [congrFun hHidden]
          exact .refl _
        · simpa only [congrFun hShown] using ih
      | case4 c cs hBlank hComment =>
        simp only [List.cons_append, skipBlanks_cons_eq, if_neg hBlank, if_neg hComment]
        exact continues_closing (c :: cs)

theorem Modes.isSkip_skip (m : Modes) : IsSkip m.skip := by
  unfold Modes.skip
  split
  · exact isSkip_skipBlanks
  · exact ⟨List.suffix_refl, id⟩

theorem Modes.skip_cons (m : Modes) {c : Char} (cs : List Char) (hBlank : isBlank c = false)
    (hSign : c ≠ '#') : m.skip (c :: cs) = c :: cs := by
  unfold Modes.skip
  split
  · exact skipBlanks_cons cs hBlank hSign
  · rfl

theorem Modes.skip_closing (m : Modes) (b : Bool) : m.skip (closing b) = closing b :=
  m.skip_cons _ (by decide) (by decide)

/-- Characters behind what is skipped are fewer than before. -/
theorem Modes.length_lt_of_skip {m : Modes} {c : Char} {cs rest : List Char}
    (hSkip : m.skip cs = c :: rest) : rest.length < cs.length := by
  have hSuffix := (m.isSkip_skip.suffix cs).length_le
  rw [hSkip, List.length_cons] at hSuffix
  exact hSuffix

/-! ## Readers -/

variable {α β : Type} {f g : List Char → Except PatternError (α × List Char)}

/-- A reader leaves an end of its text, and what it reads alone it reads in front of the closing. -/
structure IsReader (f : List Char → Except PatternError (α × List Char)) : Prop where
  suffix : ∀ {cs x rest}, f cs = .ok (x, rest) → rest <:+ cs
  ok : ∀ {cs cs' x rest}, Continues cs cs' → f cs = .ok (x, rest) →
    ∃ rest', (∀ b, f (cs' b) = .ok (x, rest' b)) ∧ Continues rest rest'

theorem isReader_ok (x : α) : IsReader fun cs => .ok (x, cs) where
  suffix h := by
    cases h
    exact List.suffix_refl _
  ok hCont h := by
    cases h
    exact ⟨_, fun _ => rfl, hCont⟩

theorem isReader_error (e : PatternError) :
    IsReader fun _ => (.error e : Except PatternError (α × List Char)) where
  suffix h := by cases h
  ok _ h := by cases h

/-- A reader behind a step that does not depend on the text. -/
theorem isReader_bind_const (outcome : Except PatternError β)
    {k : β → List Char → Except PatternError (α × List Char)} (hk : ∀ y, IsReader (k y)) :
    IsReader fun cs => outcome >>= fun y => k y cs := by
  cases outcome with
  | error e => exact isReader_error e
  | ok y => exact hk y

/-- A result that does not depend on the text. -/
theorem isReader_const (outcome : Except PatternError β) (result : β → α) :
    IsReader fun cs => outcome >>= fun y => .ok (result y, cs) :=
  isReader_bind_const outcome fun y => isReader_ok (result y)

/-- One reader after another. -/
theorem IsReader.bind (hf : IsReader f) {k : α → List Char → Except PatternError (β × List Char)}
    (hk : ∀ x, IsReader (k x)) : IsReader fun cs => f cs >>= fun r => k r.1 r.2 where
  suffix h := by
    obtain ⟨⟨x, rest⟩, hFirst, hSecond⟩ := bind_eq_ok_iff.mp h
    exact ((hk x).suffix hSecond).trans (hf.suffix hFirst)
  ok hCont h := by
    obtain ⟨⟨x, rest⟩, hFirst, hSecond⟩ := bind_eq_ok_iff.mp h
    obtain ⟨rest', hFirst', hCont'⟩ := hf.ok hCont hFirst
    obtain ⟨last, hSecond', hLast⟩ := (hk x).ok hCont' hSecond
    exact ⟨last, fun b => bind_eq_ok_iff.mpr ⟨_, hFirst' b, hSecond' b⟩, hLast⟩

theorem IsReader.map (hf : IsReader f) (result : α → β) :
    IsReader fun cs => (f cs).map fun r => (result r.1, r.2) where
  suffix h := by
    obtain ⟨⟨x, rest⟩, hRead, hResult⟩ := map_eq_ok_iff.mp h
    cases hResult
    exact hf.suffix hRead
  ok hCont h := by
    obtain ⟨⟨x, rest⟩, hRead, hResult⟩ := map_eq_ok_iff.mp h
    cases hResult
    obtain ⟨rest', hRead', hCont'⟩ := hf.ok hCont hRead
    exact ⟨rest', fun b => map_eq_ok_iff.mpr ⟨_, hRead' b, rfl⟩, hCont'⟩

/-- Reading by a test that comes out alike in front of the closing. -/
theorem isReader_if {test : List Char → Bool}
    (hTest : ∀ {cs cs'}, Continues cs cs' → ∀ b, test (cs' b) = test cs) (hf : IsReader f)
    (hg : IsReader g) : IsReader fun cs => if test cs then f cs else g cs where
  suffix h := by
    split at h
    · exact hf.suffix h
    · exact hg.suffix h
  ok hCont h := by
    simp only [hTest hCont]
    split at h
    · next hTrue => simpa only [hTrue, if_true] using hf.ok hCont h
    · next hFalse => simpa only [hFalse, Bool.false_eq_true, if_false] using hg.ok hCont h

/-- Reading after a skip. -/
theorem IsReader.comp (hf : IsReader f) {skip : List Char → List Char} (hSkip : IsSkip skip) :
    IsReader fun cs => f (skip cs) where
  suffix h := (hf.suffix h).trans (hSkip.suffix _)
  ok hCont h := hf.ok (hSkip.continues hCont) h

/-- Reading by the first character, where an empty text is a fault. -/
theorem isReader_first {k : Char → List Char → Except PatternError (α × List Char)}
    (hk : ∀ c, IsReader (k c)) (e : PatternError) :
    IsReader fun cs =>
      match cs with
      | [] => .error e
      | c :: rest => k c rest where
  suffix {cs x rest} h := by
    cases cs with
    | nil => cases h
    | cons c cs => exact ((hk c).suffix h).trans (List.suffix_cons c cs)
  ok {cs cs' x rest} hCont h := by
    cases cs with
    | nil => cases h
    | cons c cs =>
      obtain ⟨cs', rfl, hCont'⟩ := continues_cons_iff.mp hCont
      exact (hk c).ok hCont' h

/-- Reading by the first character when it is one of some, which the closing parenthesis is not. -/
theorem isReader_headIf {p : Char → Bool} (hp : p ')' = false)
    {k : Char → List Char → Except PatternError (α × List Char)}
    (hk : ∀ c, p c = true → IsReader (k c)) (hg : IsReader g) :
    IsReader fun cs =>
      match cs with
      | [] => g []
      | c :: rest => if p c then k c rest else g (c :: rest) where
  suffix {cs x rest} h := by
    cases cs with
    | nil => exact hg.suffix h
    | cons c cs =>
      dsimp only at h
      split at h
      · next hc => exact ((hk c hc).suffix h).trans (List.suffix_cons c cs)
      · exact hg.suffix h
  ok {cs cs' x rest} hCont h := by
    cases cs with
    | nil =>
      -- behind an empty text stands the closing parenthesis, which goes to the second reader too
      rcases continues_nil_iff.mp hCont with rfl | rfl
      · exact hg.ok (.refl []) h
      · have hBehind := hg.ok (continues_closing []) h
        simpa only [List.nil_append, closing, hp, Bool.false_eq_true, if_false] using hBehind
    | cons c cs =>
      obtain ⟨cs', rfl, hCont'⟩ := continues_cons_iff.mp hCont
      dsimp only at h ⊢
      split at h
      · next hc => simpa only [hc, if_true] using (hk c hc).ok hCont' h
      · next hc => simpa only [hc, if_false, Bool.false_eq_true] using hg.ok hCont h

/-- A look at the start of a text that finds the same in front of the closing. -/
structure IsLookup (look : List Char → Option (β × List Char)) : Prop where
  suffix : ∀ {cs x rest}, look cs = some (x, rest) → rest <:+ cs
  some : ∀ {cs cs' x rest}, Continues cs cs' → look cs = some (x, rest) →
    ∃ rest', (∀ b, look (cs' b) = some (x, rest' b)) ∧ Continues rest rest'
  none : ∀ {cs cs'}, Continues cs cs' → look cs = none → ∀ b, look (cs' b) = none

theorem isLookup_none : IsLookup fun _ => (none : Option (β × List Char)) where
  suffix h := by cases h
  some _ h := by cases h
  none _ _ _ := rfl

/-- A find that does not depend on the text. -/
theorem isLookup_const (found : Option β) : IsLookup fun cs => found.map fun y => (y, cs) := by
  cases found with
  | none => exact isLookup_none
  | some y =>
    refine ⟨fun {cs x rest} h => ?_, fun {cs cs' x rest} hCont h => ?_, fun _ h => by cases h⟩
    · cases h
      exact List.suffix_refl _
    · cases h
      exact ⟨cs', fun _ => rfl, hCont⟩

/-- One look behind another. -/
theorem IsLookup.bind {γ : Type} {look : List Char → Option (β × List Char)} (hLook : IsLookup look)
    {k : β → List Char → Option (γ × List Char)} (hk : ∀ y, IsLookup (k y)) :
    IsLookup fun cs => (look cs).bind fun r => k r.1 r.2 where
  suffix h := by
    obtain ⟨⟨y, rest⟩, hFirst, hSecond⟩ := Option.bind_eq_some_iff.mp h
    exact ((hk y).suffix hSecond).trans (hLook.suffix hFirst)
  some hCont h := by
    obtain ⟨⟨y, rest⟩, hFirst, hSecond⟩ := Option.bind_eq_some_iff.mp h
    obtain ⟨rest', hFirst', hCont'⟩ := hLook.some hCont hFirst
    obtain ⟨last, hSecond', hLast⟩ := (hk y).some hCont' hSecond
    exact ⟨last, fun b => Option.bind_eq_some_iff.mpr ⟨_, hFirst' b, hSecond' b⟩, hLast⟩
  none {cs cs'} hCont h := by
    intro b
    cases hFirst : look cs with
    | none => rw [hLook.none hCont hFirst, Option.bind_none]
    | some r =>
      obtain ⟨rest', hFirst', hCont'⟩ := hLook.some hCont hFirst
      rw [hFirst, Option.bind_some] at h
      rw [hFirst', Option.bind_some]
      exact (hk r.1).none hCont' h b

theorem isLookup_splitOnce? {separator : Char} (hParen : separator ≠ ')') (hAnchor : separator ≠ '$') :
    IsLookup (splitOnce? separator) where
  suffix {cs x rest} h := by
    rw [splitOnce?_eq] at h
    split at h
    · cases h
    · next hDrop =>
      cases h
      exact (List.suffix_cons _ _).trans (hDrop ▸ List.dropWhile_suffix _)
  some {cs cs' x rest} hCont h := by
    rw [splitOnce?_eq] at h
    split at h
    · cases h
    · next c rest' hDrop =>
      cases h
      have hDrops := (isSkip_dropWhile (p := (· != separator))
        (.inr ⟨bne_iff_ne.mpr hParen.symm, bne_iff_ne.mpr hAnchor.symm⟩)).continues hCont
      rw [hDrop] at hDrops
      obtain ⟨rest', hDrop', hRest⟩ := continues_cons_iff.mp hDrops
      refine ⟨rest', fun b => ?_, hRest⟩
      have hDropAt : (cs' b).dropWhile (· != separator) = c :: rest' b := congrFun hDrop' b
      simp only [splitOnce?_eq, hDropAt,
        hCont.takeWhile_eq (p := (· != separator)) (by simp [hDrop])]
  none {cs cs'} hCont h b := by
    rw [splitOnce?_eq] at h ⊢
    split at h
    · next hDrop =>
      have hNone : (cs' b).dropWhile (· != separator) = [] := by
        rw [List.dropWhile_eq_nil_iff] at hDrop ⊢
        rcases hCont with rfl | rfl
        · exact hDrop
        · intro c hc
          rcases List.mem_append.mp hc with hc | hc
          · exact hDrop c hc
          · rcases mem_closing hc with rfl | rfl
            · exact bne_iff_ne.mpr hParen.symm
            · exact bne_iff_ne.mpr hAnchor.symm
      rw [hNone]
    · cases h

/-- A look by the first character when it is one of some. -/
theorem isLookup_headIf {p : Char → Bool} (hp : p ')' = false)
    {look look' : List Char → Option (β × List Char)} (hLook : IsLookup look)
    (hLook' : IsLookup look') :
    IsLookup fun cs =>
      match cs with
      | [] => look' []
      | c :: rest => if p c then look rest else look' (c :: rest) where
  suffix {cs x rest} h := by
    cases cs with
    | nil => exact hLook'.suffix h
    | cons c cs =>
      dsimp only at h
      split at h
      · exact (hLook.suffix h).trans (List.suffix_cons c cs)
      · exact hLook'.suffix h
  some {cs cs' x rest} hCont h := by
    cases cs with
    | nil =>
      rcases continues_nil_iff.mp hCont with rfl | rfl
      · exact hLook'.some (.refl []) h
      · have hBehind := hLook'.some (continues_closing []) h
        simpa only [List.nil_append, closing, hp, Bool.false_eq_true, if_false] using hBehind
    | cons c cs =>
      obtain ⟨cs', rfl, hCont'⟩ := continues_cons_iff.mp hCont
      dsimp only at h ⊢
      split at h
      · next hc => simpa only [hc, if_true] using hLook.some hCont' h
      · next hc => simpa only [hc, if_false, Bool.false_eq_true] using hLook'.some hCont h
  none {cs cs'} hCont h b := by
    cases cs with
    | nil =>
      rcases continues_nil_iff.mp hCont with rfl | rfl
      · exact h
      · have hBehind := hLook'.none (continues_closing []) h b
        simpa only [List.nil_append, closing, hp, Bool.false_eq_true, if_false] using hBehind
    | cons c cs =>
      obtain ⟨cs', rfl, hCont'⟩ := continues_cons_iff.mp hCont
      dsimp only at h ⊢
      split at h
      · next hc => simpa only [hc, if_true] using hLook.none hCont' h b
      · next hc => simpa only [hc, if_false, Bool.false_eq_true] using hLook'.none hCont h b

/-- Reading by what a look at the start of the text finds. -/
def byLookup (look : List Char → Option (β × List Char))
    (found : β → List Char → Except PatternError (α × List Char))
    (other : List Char → Except PatternError (α × List Char)) (cs : List Char) :
    Except PatternError (α × List Char) :=
  match look cs with
  | some r => found r.1 r.2
  | none => other cs

theorem isReader_byLookup {look : List Char → Option (β × List Char)} (hLook : IsLookup look)
    {k : β → List Char → Except PatternError (α × List Char)} (hk : ∀ y, IsReader (k y))
    (hg : IsReader g) : IsReader (byLookup look k g) where
  suffix {cs x rest} h := by
    unfold byLookup at h
    split at h
    · next r hAt => exact ((hk r.1).suffix h).trans (hLook.suffix hAt)
    · exact hg.suffix h
  ok {cs cs' x rest} hCont h := by
    unfold byLookup at h ⊢
    split at h
    · next r hAt =>
      obtain ⟨rest', hAt', hCont'⟩ := hLook.some hCont hAt
      simpa only [hAt'] using (hk r.1).ok hCont' h
    · next hAt => simpa only [hLook.none hCont hAt] using hg.ok hCont h

/-! ## Fuel -/

/-- With enough fuel the same is read as with more, if a step reads on from texts that need less, and no
fuel is enough only for texts that need none. -/
theorem fuel_congr {σ γ : Type} (enough : List Char → Nat) {f : Nat → σ → List Char → γ}
    (hNone : ∀ n s cs, enough cs = 0 → f n s cs = f 0 s cs)
    (hStep : ∀ n n' s cs, (∀ s' rest, enough rest < enough cs → f n s' rest = f n' s' rest) →
      f (n + 1) s cs = f (n' + 1) s cs)
    {n n' : Nat} (s : σ) {cs : List Char} (hn : enough cs ≤ n) (hn' : enough cs ≤ n') :
    f n s cs = f n' s cs := by
  induction n generalizing n' s cs with
  | zero => exact (hNone n' s cs (by omega)).symm
  | succ n ih =>
    cases n' with
    | zero => exact hNone (n + 1) s cs (by omega)
    | succ n' => exact hStep n n' s cs fun s' rest hLess => ih s' (by omega) (by omega)

/-- A step with fuel left for one sign more than its text has. -/
theorem fuel_congr_succ {σ γ : Type} {f : Nat → σ → List Char → γ}
    (hStep : ∀ n n' s cs, (∀ s' rest, rest.length < cs.length → f n s' rest = f n' s' rest) →
      f (n + 1) s cs = f (n' + 1) s cs)
    {n n' : Nat} (s : σ) {cs : List Char} (hn : cs.length < n) (hn' : cs.length < n') :
    f n s cs = f n' s cs :=
  fuel_congr (fun cs => cs.length + 1) (fun _ _ _ hNone => absurd hNone (Nat.succ_ne_zero _))
    (fun n n' s cs h => hStep n n' s cs fun s' rest hLess => h s' rest (Nat.succ_lt_succ hLess))
    s hn hn'

/-- A reader with enough fuel for its text. -/
theorem isReader_fuel (enough : List Char → Nat)
    {f : Nat → List Char → Except PatternError (α × List Char)} (hf : ∀ fuel, IsReader (f fuel))
    (hEnough : ∀ cs fuel, enough cs ≤ fuel → f fuel cs = f (enough cs) cs) :
    IsReader fun cs => f (enough cs) cs where
  suffix h := (hf _).suffix h
  ok {cs cs' x rest} hCont h := by
    -- all texts are read with the greatest fuel
    let fuel := max (enough cs) (max (enough (cs' false)) (enough (cs' true)))
    have hFuel (b : Bool) : enough (cs' b) ≤ fuel := by
      cases b <;> omega
    rw [← hEnough cs fuel (Nat.le_max_left _ _)] at h
    obtain ⟨rest', hRead, hCont'⟩ := (hf fuel).ok hCont h
    exact ⟨rest', fun b => (hEnough _ _ (hFuel b)).symm.trans (hRead b), hCont'⟩

end RefRules.Pattern
