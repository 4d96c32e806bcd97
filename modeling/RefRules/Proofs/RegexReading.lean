import RefRules.Proofs.RegexSigns

/-!
# RefRules — patterns in front of the closing

A pattern that is read alone is read the same way inside of a group that is closed behind it, unless it
leaves a comment open, which hides the closing.

Main definitions and results:

* `Pattern.State.read` — all signs of a text;
* `Pattern.State.under` — a state with further open groups around it;
* `Pattern.read_behind_opening` — what comes of a text in front of the closing.
-/

namespace RefRules.Pattern

open Text

variable {s t : State} {cs rest : List Char} {fs : List GroupFrame}

/-! ## Reading to the end -/

theorem length_le_of_step {c : Char} (h : s.step c cs = .ok (t, rest)) : rest.length ≤ cs.length :=
  ((isReader_step s c).suffix h).length_le

theorem run_fuel {n n' : Nat} (hn : cs.length < n) (hn' : cs.length < n') :
    State.run n s cs = State.run n' s cs := by
  refine fuel_congr_succ (f := State.run) (fun n n' s cs h => ?_) s hn hn'
  rw [State.run, State.run]
  cases hSkip : s.modes.skip cs with
  | nil => rfl
  | cons c rest =>
    refine bind_congr_of_ok fun r hStep => ?_
    exact h _ _ ((length_le_of_step hStep).trans_lt (Modes.length_lt_of_skip hSkip))

/-- Reads all signs of a text. -/
def State.read (s : State) (cs : List Char) : Except PatternError State :=
  State.run (cs.length + 1) s cs

theorem read_eq (s : State) (cs : List Char) :
    s.read cs =
      match s.modes.skip cs with
      | [] => .ok s
      | c :: rest => s.step c rest >>= fun r => r.1.read r.2 := by
  rw [State.read, State.run]
  cases hSkip : s.modes.skip cs with
  | nil => rfl
  | cons c rest =>
    have hLess := Modes.length_lt_of_skip hSkip
    refine bind_congr_of_ok fun r hStep => ?_
    have hRest := length_le_of_step hStep
    exact run_fuel (by omega) (by omega)

/-! ## Groups around a pattern -/

/-- The state with further open groups around it. -/
def State.under (s : State) (fs : List GroupFrame) : State :=
  { s with frames := s.frames ++ fs }

@[simp] theorem modes_under : (s.under fs).modes = s.modes := rfl

@[simp] theorem names_under : (s.under fs).names = s.names := rfl

@[simp] theorem frames_under : (s.under fs).frames = s.frames ++ fs := rfl

theorem repeatLast_under (min : Nat) (max : Option Nat) :
    (s.under fs).repeatLast min max = (s.repeatLast min max).map (·.under fs) := by
  unfold State.repeatLast State.under
  dsimp only
  split
  · split <;> rfl
  · rfl

theorem closeGroup_under (h : s.frames ≠ []) :
    (s.under fs).closeGroup = s.closeGroup.map (·.under fs) := by
  unfold State.closeGroup State.under
  cases hFrames : s.frames with
  | nil => exact absurd hFrames h
  | cons frame frames => rfl

theorem named_under (name : List Char) :
    (s.under fs).named name = (s.named name).map (·.under fs) := by
  unfold State.named
  rw [names_under]
  split <;> rfl

theorem withModes_under (signs : List ModeSign) (stop : Char) :
    (s.under fs).withModes signs stop = (s.withModes signs stop).map (·.under fs) := by
  unfold State.withModes
  split
  · rfl
  · split <;> rfl

theorem openNamed_under (cs : List Char) :
    (s.under fs).openNamed cs = (s.openNamed cs).map fun r => (r.1.under fs, r.2) := by
  rw [openNamed_eq, openNamed_eq, map_bind_eq]
  refine bind_congr fun r => ?_
  rw [named_under, bind_map_eq, map_bind_eq]
  rfl

theorem questionNext_under (c : Char) (cs : List Char) :
    (s.under fs).questionNext c cs = (s.questionNext c cs).map fun r => (r.1.under fs, r.2) := by
  unfold State.questionNext
  split
  · rfl
  · split
    · unfold State.nameSign
      split
      · exact openNamed_under []
      · split
        · rfl
        · exact openNamed_under _
    · split
      · unfold State.letterSign
        split
        · rfl
        · split
          · exact openNamed_under _
          · rfl
      · rw [map_bind_eq]
        refine bind_congr fun r => ?_
        rw [withModes_under, bind_map_eq, map_bind_eq]
        rfl

theorem scanGroup_under (cs : List Char) :
    (s.under fs).scanGroup cs = (s.scanGroup cs).map fun r => (r.1.under fs, r.2) := by
  rw [scanGroup_eq, scanGroup_eq, modes_under]
  unfold State.groupSign
  split
  · rfl
  · split
    · split
      · rfl
      · exact questionNext_under _ _
    · rfl

/-- A sign changes the innermost group, or closes one that is open in the pattern. -/
theorem step_under {c : Char} (h : c = ')' → s.frames ≠ []) :
    (s.under fs).step c cs = (s.step c cs).map fun r => (r.1.under fs, r.2) := by
  have hRepeat (min : Nat) (max : Option Nat) :
      ((s.under fs).repeatLast min max).map (fun s => (s, skipLazySign cs)) =
        ((s.repeatLast min max).map fun s => (s, skipLazySign cs)).map
          fun r => (r.1.under fs, r.2) := by
    rw [repeatLast_under]
    cases s.repeatLast min max <;> rfl
  by_cases hCounts : c = '\x7b'
  · subst hCounts
    rw [countedStep_eq, countedStep_eq, modes_under, map_bind_eq]
    refine bind_congr fun r => ?_
    rw [repeatLast_under, bind_map_eq, map_bind_eq]
    rfl
  by_cases hEscape : c = '\\'
  · subst hEscape
    rw [escapeStep_eq, escapeStep_eq, modes_under, map_bind_eq]
    refine bind_congr fun r => ?_
    rw [map_bind_eq]
    rfl
  unfold State.step
  split
  · exact scanGroup_under cs
  · rw [closeGroup_under (h rfl)]
    cases s.closeGroup <;> rfl
  · rfl
  · rw [modes_under]
    cases Bracket.scan s.modes cs <;> rfl
  · exact hRepeat 0 (some 1)
  · exact hRepeat 0 none
  · exact hRepeat 1 none
  · exact absurd rfl hCounts
  · exact absurd rfl hEscape
  · rw [modes_under]
    cases s.modes.dot <;> rfl
  · rfl
  · rfl
  · rw [modes_under]
    cases (Atom.literal c).toRegex s.modes <;> rfl

/-! ## In front of the closing -/

theorem read_of_skip_nil (h : s.modes.skip cs = []) : s.read cs = .ok s := by
  rw [read_eq, h]

theorem read_of_skip_cons {c : Char} (h : s.modes.skip cs = c :: rest) :
    s.read cs = s.step c rest >>= fun r => r.1.read r.2 := by
  rw [read_eq, h]

theorem read_of_skip_closing {b : Bool} (h : s.modes.skip cs = closing b) :
    s.read cs = s.read (closing b) := by
  rw [read_eq, h, read_eq, s.modes.skip_closing]

theorem frames_ne_nil_of_step {c : Char} {r : State × List Char} (h : s.step c cs = .ok r)
    (hc : c = ')') : s.frames ≠ [] := by
  subst hc
  intro hFrames
  obtain ⟨s', hClose, -⟩ := map_eq_ok_iff.mp (show s.closeGroup.map _ = _ from h)
  simp [State.closeGroup, hFrames] at hClose

/-- A text that is read is read in front of the closing as far as it goes. Then the closing is read,
unless a comment that is left open hides it. -/
theorem read_behind_opening {cs' : Bool → List Char} (hCont : Continues cs cs')
    (h : s.read cs = .ok t) :
    (∀ fs b, (s.under fs).read (cs' b) = .ok (t.under fs)) ∨
      ∀ fs b, (s.under fs).read (cs' b) = (t.under fs).read (closing b) := by
  -- on the length of the text: a sign may read more than one character
  induction hLength : cs.length using Nat.strong_induction_on generalizing s cs cs' with
  | _ n ih =>
    have hSkips := s.modes.isSkip_skip.continues hCont
    cases hSkip : s.modes.skip cs with
    | nil =>
      rw [read_of_skip_nil hSkip] at h
      cases h
      rw [hSkip] at hSkips
      rcases continues_nil_iff.mp hSkips with hSkip' | hSkip'
      · exact .inl fun fs b => read_of_skip_nil (congrFun hSkip' b)
      · exact .inr fun fs b => read_of_skip_closing (congrFun hSkip' b)
    | cons c rest =>
      rw [read_of_skip_cons hSkip] at h
      obtain ⟨⟨s₁, rest₁⟩, hStep, hRead⟩ := bind_eq_ok_iff.mp h
      rw [hSkip] at hSkips
      obtain ⟨rest', hSkip', hRest⟩ := continues_cons_iff.mp hSkips
      obtain ⟨rest₁', hStep', hRest₁⟩ := (isReader_step s c).ok hRest hStep
      have hBehind (fs : List GroupFrame) (b : Bool) :
          (s.under fs).read (cs' b) = (s₁.under fs).read (rest₁' b) := by
        have hSkipAt : (s.under fs).modes.skip (cs' b) = c :: rest' b := congrFun hSkip' b
        rw [read_of_skip_cons hSkipAt, step_under (frames_ne_nil_of_step hStep), hStep']
        rfl
      have hLess : rest₁.length < n :=
        hLength ▸ (length_le_of_step hStep).trans_lt (Modes.length_lt_of_skip hSkip)
      simp only [hBehind]
      exact ih _ hLess hRest₁ hRead rfl

end RefRules.Pattern
