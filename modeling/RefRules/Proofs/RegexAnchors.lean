import RefRules.Proofs.RegexReading
import RefRules.Proofs.RegexSearch
import RefRules.Rule.TypeSpec

/-!
# RefRules — patterns between anchors

A regex spec is to accept the names that its pattern matches as a whole, and for that the pattern is
compiled between `^(?:` and `)$`. What is compiled so is another text: it may be refused where the pattern
is one by itself, and it may be a pattern where the text between the anchors is none, because it closes the
group around it. Of the engine that compiles patterns no more is used than what the syntax of patterns says
about groups and anchors.

Main definitions and results:

* `RegexEngine.FollowsSyntax` — what an engine makes of groups and of anchors beside them;
* `RegexEngine.followsSyntax_standard` — the reader of this library is such an engine;
* `Regex.ReadsWhole` — a regex spec accepts the names that its pattern matches as a whole;
* `Regex.readsWhole_iff` — for which patterns that is so.
-/

namespace RefRules

namespace RegexEngine

open Regex

/-- What the syntax of patterns says about groups without capture and about the anchors beside them. -/
structure FollowsSyntax (engine : RegexEngine) : Prop where
  /-- A pattern in a group matches what it matches alone. -/
  group : ∀ {p r g}, engine.compile p = .ok r → engine.compile (grouped p) = .ok g → g.Equivalent r
  /-- In front of a group an anchor is the start of the text, and the group is read without it too. -/
  start : ∀ {p v}, engine.Accepts p → engine.compile ("^" ++ grouped p) = .ok v →
    ∃ g, engine.compile (grouped p) = .ok g ∧ v.Equivalent (.seq (.look .textStart) g)
  /-- Behind a group an anchor is the end of the text, and what stands before it is read alone too. -/
  stop : ∀ {p w}, engine.Accepts p → engine.compile (anchored p) = .ok w →
    ∃ v, engine.compile ("^" ++ grouped p) = .ok v ∧ w.Equivalent (.seq v (.look .textEnd))

variable {engine : RegexEngine} {p : String} {r w : Regex}

/-- A pattern that is compiled between anchors is compiled to its own expression between them. -/
theorem FollowsSyntax.equivalent_betweenAnchors (h : engine.FollowsSyntax)
    (hAlone : engine.compile p = .ok r) (hWhole : engine.compile (anchored p) = .ok w) :
    w.Equivalent r.betweenAnchors := by
  obtain ⟨v, hStarted, hEnd⟩ := h.stop ⟨r, hAlone⟩ hWhole
  obtain ⟨g, hGrouped, hStart⟩ := h.start ⟨r, hAlone⟩ hStarted
  have hInner : v.Equivalent (.seq (.look .textStart) r) :=
    hStart.trans ((Equivalent.refl _).seq (h.group hAlone hGrouped))
  exact hEnd.trans (hInner.seq (.refl _))

end RegexEngine

/-! ## The reader of this library -/

namespace Pattern

variable {t : State} {cs : List Char}

/-- What stands before a group, under the modes that a pattern begins with. -/
def outside (items : List Item) : GroupFrame :=
  ⟨{}, [], items⟩

/-- What has been read as a group. -/
def State.toItem (t : State) : Item :=
  { regex := t.body.regex, depth := t.body.depth + 1 }

/-- The start of a text as an item. -/
def startItem : Item :=
  { regex := .look .textStart }

/-- The end of a text as an item. -/
def endItem : Item :=
  { regex := .look .textEnd }

/-- A group that has been read behind some items, perhaps with the end of the text behind it. -/
def State.closed (t : State) (items : List Item) (anchored : Bool) : State where
  items := (if anchored then [endItem] else []) ++ t.toItem :: items
  names := t.names

theorem depth_closed_behind_start (t : State) (b : Bool) :
    (t.closed [startItem] b).body.depth = t.body.depth + 2 := by
  cases b <;> simp [State.closed, State.body, State.branch, joinItems, joinTwo, State.toItem, startItem,
    endItem]

theorem read_opening (items : List Item) (cs : List Char) :
    ({ items := items } : State).read ('(' :: '?' :: ':' :: cs) =
      (({} : State).under [outside items]).read cs := by
  have hGroup : ({ items := items } : State).step '(' ('?' :: ':' :: cs) =
      .ok (({} : State).under [outside items], cs) := rfl
  rw [read_of_skip_cons (c := '(') rfl, hGroup, ok_bind]

theorem read_start (cs : List Char) :
    ({} : State).read ('^' :: cs) = ({ items := [startItem] } : State).read cs := by
  have hAnchor : ({} : State).step '^' cs = .ok ({ items := [startItem] }, cs) := rfl
  rw [read_of_skip_cons (c := '^') rfl, hAnchor, ok_bind]

/-- The closing closes the group around a pattern. -/
theorem read_closing (h : t.frames = []) (items : List Item) (b : Bool) :
    (t.under [outside items]).read (closing b) = .ok (t.closed items b) := by
  have hClose (rest : List Char) : (t.under [outside items]).step ')' rest =
      .ok ({ items := t.toItem :: items, names := t.names }, rest) := by
    show (t.under [outside items]).closeGroup.map _ = _
    simp only [State.closeGroup, frames_under, h, List.nil_append]
    rfl
  rw [closing, read_of_skip_cons ((t.under _).modes.skip_cons _ (by decide) (by decide)), hClose,
    ok_bind]
  cases b <;> rfl

/-- The text of a group with a pattern in it, perhaps with an anchor behind it. -/
def groupText (cs : List Char) (anchored : Bool) : List Char :=
  '(' :: '?' :: ':' :: (cs ++ closing anchored)

/-- A pattern in a group is read as a group that is left open, if the pattern ends in a comment, whatever
anchors stand beside the group; and as a group that is closed otherwise. -/
theorem read_groupText (hRead : ({} : State).read cs = .ok t) (h : t.frames = []) :
    (∀ items b, ({ items := items } : State).read (groupText cs b) = .ok (t.under [outside items])) ∨
      ∀ items b, ({ items := items } : State).read (groupText cs b) = .ok (t.closed items b) := by
  simp only [groupText, read_opening]
  refine (read_behind_opening (continues_closing cs) hRead).imp (fun hHidden items b => ?_)
    fun hShown items b => ?_
  · exact hHidden [outside items] b
  · rw [hShown, read_closing h]

end Pattern

namespace Regex

open Pattern

variable {p : String} {r w : Regex}

theorem parse_eq_ok_iff {cs : List Char} :
    parse cs = .ok r ↔
      ∃ s, ({} : State).read cs = .ok s ∧ s.frames = [] ∧ s.body.depth ≤ nestingLimit ∧
        s.body.regex = r := by
  show (({} : State).read cs >>= _) = _ ↔ _
  rw [bind_eq_ok_iff]
  refine exists_congr fun s => and_congr_right fun _ => ?_
  cases s.frames with
  | cons frame frames => simp
  | nil =>
    by_cases hDeep : nestingLimit < s.body.depth
    · simp [hDeep, Nat.not_le.mpr hDeep]
    · simp [hDeep, Nat.le_of_not_lt hDeep, pure, Except.pure]

/-- A text that begins with items and a group is a pattern only if the group is closed. -/
theorem exists_closed_of_parse {cs text : List Char} {items : List Item} {b : Bool}
    (hAlone : parse cs = .ok r)
    (hText : ({} : State).read text = ({ items := items } : State).read (groupText cs b))
    (h : parse text = .ok w) :
    ∃ t : State, t.body.regex = r ∧
      (∀ items b, ({ items := items } : State).read (groupText cs b) = .ok (t.closed items b)) ∧
      (t.closed items b).body.depth ≤ nestingLimit ∧ (t.closed items b).body.regex = w := by
  obtain ⟨t, hRead, hFrames, -, rfl⟩ := parse_eq_ok_iff.mp hAlone
  obtain ⟨s, hWhole, hNone, hDepth, rfl⟩ := parse_eq_ok_iff.mp h
  rw [hText] at hWhole
  rcases read_groupText hRead hFrames with hOpen | hClosed
  · rw [hOpen] at hWhole
    cases hWhole
    simp [outside] at hNone
  · refine ⟨t, rfl, hClosed, ?_⟩
    rw [hClosed] at hWhole
    cases hWhole
    exact ⟨hDepth, rfl⟩

end Regex

namespace RegexEngine

open Pattern Regex

theorem compile_standard_iff {p : String} {r : Regex} :
    standard.compile p = .ok r ↔ parse p.toList = .ok r :=
  mapError_eq_ok_iff

theorem toList_grouped (p : String) : (grouped p).toList = groupText p.toList false := by
  simp [grouped, groupText, closing, String.toList_append]

theorem read_started (p : String) :
    ({} : State).read ("^" ++ grouped p).toList =
      ({ items := [startItem] } : State).read (groupText p.toList false) := by
  rw [← read_start, ← toList_grouped, String.toList_append]
  rfl

theorem read_anchored (p : String) :
    ({} : State).read (anchored p).toList =
      ({ items := [startItem] } : State).read (groupText p.toList true) := by
  have hText : (anchored p).toList = '^' :: groupText p.toList true := by
    simp [anchored, grouped, groupText, closing, String.toList_append]
  rw [hText, read_start]

/-- The reader of this library reads groups and anchors as the syntax says. -/
theorem followsSyntax_standard : standard.FollowsSyntax where
  group {p r g} hAlone hGrouped := by
    rw [compile_standard_iff] at hAlone hGrouped
    obtain ⟨t, rfl, -, -, rfl⟩ :=
      exists_closed_of_parse hAlone (congrArg (State.read {}) (toList_grouped p)) hGrouped
    exact .refl _
  start {p v} hp hStarted := by
    obtain ⟨r, hAlone⟩ := hp
    rw [compile_standard_iff] at hAlone hStarted
    obtain ⟨t, -, hRead, hDepth, rfl⟩ := exists_closed_of_parse hAlone (read_started p) hStarted
    rw [depth_closed_behind_start] at hDepth
    have hLess : (t.closed [] false).body.depth ≤ nestingLimit := Nat.le_of_succ_le hDepth
    refine ⟨(t.closed [] false).body.regex, ?_, .refl _⟩
    rw [compile_standard_iff, parse_eq_ok_iff, toList_grouped]
    exact ⟨t.closed [] false, hRead [] false, rfl, hLess, rfl⟩
  stop {p w} hp hWhole := by
    obtain ⟨r, hAlone⟩ := hp
    rw [compile_standard_iff] at hAlone hWhole
    obtain ⟨t, -, hRead, hDepth, rfl⟩ := exists_closed_of_parse hAlone (read_anchored p) hWhole
    have hLess : (t.closed [startItem] false).body.depth ≤ nestingLimit := by
      rwa [depth_closed_behind_start] at hDepth ⊢
    refine ⟨(t.closed [startItem] false).body.regex, ?_, ?_⟩
    · rw [compile_standard_iff, parse_eq_ok_iff, read_started]
      exact ⟨t.closed [startItem] false, hRead [startItem] false, rfl, hLess, rfl⟩
    · -- the reader puts a row together from its end
      exact equivalent_seq_assoc (.look .textStart) t.body.regex (.look .textEnd)

end RegexEngine

/-! ## Regex specs -/

namespace Regex

variable {engine : RegexEngine} {cache : RegexCache} {w : Regex}

/-- The patterns compiled after some have been asked for, one after another. -/
def asked (engine : RegexEngine) (patterns : List String) : RegexCache :=
  patterns.foldl (fun cache p => (cache.get p).2) { engine := engine }

/-- What is kept is what the engine compiles a pattern to between anchors. -/
structure IsFaithful (engine : RegexEngine) (cache : RegexCache) : Prop where
  sameEngine : cache.engine = engine
  kept : ∀ p w, cache.compiled.lookup p = some w → engine.compile (anchored p) = .ok w

theorem get_of_isFaithful (h : IsFaithful engine cache) (p : String) :
    (cache.get p).1 = (engine.compile (anchored p)).mapError (.badPattern p) := by
  unfold RegexCache.get
  rw [h.sameEngine]
  split
  · next w hKept =>
    rw [h.kept p w hKept]
    rfl
  · split
    · next w hWhole =>
      rw [hWhole]
      rfl
    · next cause hWhole =>
      rw [hWhole]
      rfl

theorem IsFaithful.get (h : IsFaithful engine cache) (p : String) :
    IsFaithful engine (cache.get p).2 := by
  unfold RegexCache.get
  rw [h.sameEngine]
  split
  · exact h
  · split
    · next w hWhole =>
      refine ⟨rfl, fun q v hKept => ?_⟩
      rw [List.lookup_cons] at hKept
      split at hKept
      · next hSame =>
        cases hKept
        rw [beq_iff_eq] at hSame
        rw [hSame, hWhole]
      · exact h.kept q v hKept
    · exact h

theorem isFaithful_asked (engine : RegexEngine) (patterns : List String) :
    IsFaithful engine (asked engine patterns) := by
  have hFold (cache : RegexCache) (h : IsFaithful engine cache) :
      IsFaithful engine (patterns.foldl (fun cache p => (cache.get p).2) cache) := by
    induction patterns generalizing cache with
    | nil => exact h
    | cons p patterns ih => exact ih _ (h.get p)
  exact hFold { engine := engine } ⟨rfl, nofun⟩

/-- Whatever was asked for before, a pattern is compiled between anchors. -/
theorem get_asked_iff {earlier : List String} {p : String} :
    ((asked engine earlier).get p).1 = .ok w ↔ engine.compile (anchored p) = .ok w := by
  rw [get_of_isFaithful (isFaithful_asked engine earlier), mapError_eq_ok_iff]

/-- A pattern is compiled exactly when it is one by itself, and a spec with what it is compiled to
accepts the names that the pattern matches as a whole. -/
structure ReadsWhole (cache : RegexCache) (p : String) : Prop where
  compiles : (∃ compiled, (cache.get p).1 = .ok compiled) ↔ cache.engine.Accepts p
  accepts : ∀ compiled r, (cache.get p).1 = .ok compiled → cache.engine.compile p = .ok r →
    ∀ text assembly name,
      (TypeSpec.mk text assembly (.regex p compiled)).acceptsName name = true ↔ r.MatchesAll name

/-- A regex spec accepts the names that its pattern matches as a whole, whatever was compiled before,
unless the pattern is one by itself and none between anchors, or none by itself and one between
anchors. -/
theorem readsWhole_iff (hEngine : engine.FollowsSyntax) (earlier : List String) (p : String) :
    ReadsWhole (asked engine earlier) p ↔ (engine.Accepts p ↔ engine.Accepts (anchored p)) := by
  have hSame : (asked engine earlier).engine = engine := (isFaithful_asked engine earlier).sameEngine
  constructor
  · intro h
    have hCompiles := h.compiles
    simp only [get_asked_iff, hSame] at hCompiles
    exact hCompiles.symm
  · intro h
    refine ⟨?_, fun compiled r hCompiled hAlone text assembly name => ?_⟩
    · simp only [get_asked_iff, hSame]
      exact h.symm
    · rw [hSame] at hAlone
      have hBetween := hEngine.equivalent_betweenAnchors hAlone (get_asked_iff.mp hCompiled)
      exact (hBetween.isMatch_iff name).trans (isMatch_betweenAnchors_iff r name)

/-- The pattern `a|b` in a cache that knows other patterns accepts the names `a` and `b` alone. -/
theorem readsWhole_choice :
    RegexEngine.standard.FollowsSyntax ∧ ReadsWhole (asked .standard ["b", "(?:"]) "a|b" ∧
      ((asked .standard ["b", "(?:"]).get "a|b").1.toOption.any (·.isMatch "b") = true ∧
      ((asked .standard ["b", "(?:"]).get "a|b").1.toOption.any (·.isMatch "ab") = false := by
  have hAlone : RegexEngine.standard.Accepts "a|b" := ⟨_, rfl⟩
  have hWhole : RegexEngine.standard.Accepts (anchored "a|b") := ⟨_, rfl⟩
  have hReads := readsWhole_iff RegexEngine.followsSyntax_standard ["b", "(?:"] "a|b"
  refine ⟨RegexEngine.followsSyntax_standard, hReads.mpr (iff_of_true hAlone hWhole), ?_, ?_⟩
  · decide +kernel
  · decide +kernel

/-- The pattern `a)|(b` closes a group that it has not opened. It is compiled all the same, to an
expression that accepts names in front of it and behind it. -/
theorem not_readsWhole_unopened :
    ¬RegexEngine.standard.Accepts "a)|(b" ∧
      ((asked .standard []).get "a)|(b").1.toOption.any (·.isMatch "ax") = true ∧
      ¬ReadsWhole (asked .standard []) "a)|(b" := by
  have hAlone : ¬RegexEngine.standard.Accepts "a)|(b" := by
    rintro ⟨r, hAlone⟩
    have hFault : RegexEngine.standard.compile "a)|(b" = .error "regex parse error: unopened group" := rfl
    rw [hFault] at hAlone
    cases hAlone
  have hMatch : ((asked .standard []).get "a)|(b").1.toOption.any (·.isMatch "ax") = true := by
    decide +kernel
  refine ⟨hAlone, hMatch, fun h => ?_⟩
  cases hGet : ((asked .standard []).get "a)|(b").1 with
  | error fault =>
    rw [hGet] at hMatch
    cases hMatch
  | ok compiled => exact hAlone (h.compiles.mp ⟨compiled, hGet⟩)

end Regex

end RefRules
