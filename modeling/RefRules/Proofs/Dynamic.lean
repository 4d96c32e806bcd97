import RefRules.Proofs.Anchors

/-!
# RefRules — dynamic rules

A rule binds its path along declared types; a dynamic one leaves the hops after the first to the
walk, which looks them up on the types of the objects it meets. The two find the same as long as no
object on the way tells another type than the pointer to it is declared with.

Main result:

* `Rule.resolve_dynamic_eq_static` — the selectors of a rule and of its dynamic variant resolve to
  the same pointers.
-/

namespace RefRules

/-! ## Types of targets -/

/-- What a hop leads to is, as far as it is declared, of type `t`. -/
def Target.HasType (t : Nat) : Target → Prop
  | .value c => c.type = t
  | .pointer _ declared => declared = t
  | .missing _ _ => False

namespace Heap

variable {h : Heap}

theorem hasType_of_mem_staticTargets {t f : Nat} {target : Target}
    (hTarget : target ∈ h.staticTargets t f) : target.HasType (h.layout.fieldType t f) := by
  unfold staticTargets at hTarget
  dsimp only at hTarget
  split at hTarget
  · simp at hTarget
  · split at hTarget
    · rw [List.mem_singleton.mp hTarget]
      rfl
    · obtain ⟨word, -, rfl⟩ := Option.map_eq_some_iff.mp (Option.mem_toList.mp hTarget)
      rfl

theorem hasType_of_mem_fieldTargets {c : Cursor} {t f : Nat} {target : Target}
    (hTarget : target ∈ h.fieldTargets c t f) : target.HasType (h.layout.fieldType t f) := by
  unfold fieldTargets at hTarget
  dsimp only at hTarget
  split at hTarget
  · exact hasType_of_mem_staticTargets hTarget
  · split at hTarget
    · obtain ⟨view, -, rfl⟩ := Option.map_eq_some_iff.mp (Option.mem_toList.mp hTarget)
      rfl
    · obtain ⟨word, -, rfl⟩ := Option.map_eq_some_iff.mp (Option.mem_toList.mp hTarget)
      rfl

theorem hasType_of_elementAt? {view : View} {element stride position : Nat} {target : Target}
    (hTarget : h.elementAt? view element stride position = some target) :
    target.HasType element := by
  unfold elementAt? at hTarget
  split at hTarget
  · obtain ⟨part, -, rfl⟩ := Option.map_eq_some_iff.mp hTarget
    rfl
  · obtain ⟨word, -, rfl⟩ := Option.map_eq_some_iff.mp hTarget
    rfl

theorem hasType_of_mem_elementsFrom {view : View} {element first stride count index : Nat}
    {target : Target} (hTarget : target ∈ h.elementsFrom view element first stride count index) :
    target.HasType element := by
  induction count generalizing index with
  | zero => simp [elementsFrom] at hTarget
  | succ count ih =>
    rw [elementsFrom] at hTarget
    split at hTarget
    · simp at hTarget
    · split at hTarget
      · simp at hTarget
      · next head hHead =>
        rcases List.mem_cons.mp hTarget with rfl | hTarget
        · exact hasType_of_elementAt? hHead
        · exact ih hTarget

theorem hasType_of_mem_elementTargets {view : View} {t element : Nat}
    (hElement : h.layout.element? t = some element) {target : Target}
    (hTarget : target ∈ h.elementTargets view t) : target.HasType element := by
  unfold elementTargets at hTarget
  simp only [hElement] at hTarget
  split at hTarget
  · simp at hTarget
  · split at hTarget
    · simp at hTarget
    · exact hasType_of_mem_elementsFrom hTarget

/-! ## Steps of a walk -/

/-- A hop leads a walk on to a cursor: into an embedded value, or through a pointer to an object. -/
inductive Enters (h : Heap) (c : Cursor) (step : WalkHop) : Cursor → Prop
  | value {next : Cursor} (hTarget : .value next ∈ h.hop c step) : Enters h c step next
  | pointer {word : Word} {declared : Nat} {next : Cursor}
      (hTarget : .pointer word declared ∈ h.hop c step) (hNull : word.isNull = false)
      (hNext : h.follow? word declared = some next) : Enters h c step next

/-- On its way from a cursor a walk dereferences a pointer: the bytes of an object, and the type that
the pointer is declared with. A pointer at the end of a walk is not dereferenced. -/
inductive Dereferences (h : Heap) : List WalkHop → Cursor → View → Nat → Prop
  | here {step : WalkHop} {rest : List WalkHop} {c : Cursor} {word : Word} {declared : Nat}
      {view : View} (hTarget : .pointer word declared ∈ h.hop c step) (hNull : word.isNull = false)
      (hRest : rest ≠ []) (hView : h.snapshot.viewAt? word = some view) :
      Dereferences h (step :: rest) c view declared
  | later {step : WalkHop} {rest : List WalkHop} {c next : Cursor} {declared : Nat} {view : View}
      (hNext : h.Enters c step next) (hLater : Dereferences h rest next view declared) :
      Dereferences h (step :: rest) c view declared

/-- No object that the walk dereferences tells another type than the declared one. -/
def TypesAgree (h : Heap) (steps : List WalkHop) (c : Cursor) : Prop :=
  ∀ view declared, h.Dereferences steps c view declared →
    h.format.typeOf? view = none ∨ h.format.typeOf? view = some declared

/-- The objects that a walk dereferences, with the declared types. -/
def dereferenced (h : Heap) : List WalkHop → Cursor → List (View × Nat)
  | [], _ => []
  | step :: rest, c =>
    (h.hop c step).flatMap fun target =>
      match target with
      | .missing _ _ => []
      | .value next => h.dereferenced rest next
      | .pointer word declared =>
        if word.isNull || rest.isEmpty then []
        else
          match h.snapshot.viewAt? word with
          | none => []
          | some view =>
            (view, declared) ::
              h.dereferenced rest ⟨view, (h.format.typeOf? view).getD declared, true⟩

theorem dereferences_iff {steps : List WalkHop} {c : Cursor} {view : View} {declared : Nat} :
    h.Dereferences steps c view declared ↔ (view, declared) ∈ h.dereferenced steps c := by
  induction steps generalizing c with
  | nil =>
    constructor
    · rintro ⟨⟩
    · intro hMem
      simp [dereferenced] at hMem
  | cons step rest ih =>
    rw [dereferenced, List.mem_flatMap]
    constructor
    · intro hDeref
      cases hDeref with
      | here hTarget hNull hRest hView =>
        refine ⟨_, hTarget, ?_⟩
        simp [hNull, hRest, hView]
      | later hNext hLater =>
        cases hNext with
        | value hTarget => exact ⟨_, hTarget, ih.mp hLater⟩
        | pointer hTarget hNull hFollow =>
          obtain ⟨object, hView, rfl⟩ := Option.map_eq_some_iff.mp hFollow
          -- the walk goes on behind the pointer, so it is not at its end
          have hRest : rest ≠ [] := by
            rintro rfl
            cases hLater
          refine ⟨_, hTarget, ?_⟩
          simp [hNull, hRest, hView, ih.mp hLater]
    · rintro ⟨target, hTarget, hMem⟩
      cases target with
      | missing name t => simp at hMem
      | value next => exact .later (.value hTarget) (ih.mpr hMem)
      | pointer word type =>
        dsimp only at hMem
        split at hMem
        · simp at hMem
        · next hGoesOn =>
          simp only [Bool.or_eq_true, List.isEmpty_iff, not_or, Bool.not_eq_true] at hGoesOn
          cases hView : h.snapshot.viewAt? word with
          | none => simp [hView] at hMem
          | some object =>
            simp only [hView, List.mem_cons, Prod.mk.injEq] at hMem
            rcases hMem with ⟨rfl, rfl⟩ | hMem
            · exact .here hTarget hGoesOn.1 hGoesOn.2 hView
            · refine .later (.pointer hTarget hGoesOn.1 ?_) (ih.mpr hMem)
              simp [follow?, hView]

instance (steps : List WalkHop) (c : Cursor) : Decidable (h.TypesAgree steps c) :=
  decidable_of_iff
    (∀ o ∈ h.dereferenced steps c,
      h.format.typeOf? o.1 = none ∨ h.format.typeOf? o.1 = some o.2)
    (by simp only [TypesAgree, dereferences_iff, Prod.forall])

theorem TypesAgree.of_enters {step : WalkHop} {rest : List WalkHop} {c next : Cursor}
    (hAgree : h.TypesAgree (step :: rest) c) (hNext : h.Enters c step next) :
    h.TypesAgree rest next :=
  fun view declared hLater => hAgree view declared (.later hNext hLater)

/-- The walk goes on at the declared type. -/
theorem TypesAgree.type_eq {step : WalkHop} {rest : List WalkHop} {c next : Cursor} {t : Nat}
    (hAgree : h.TypesAgree (step :: rest) c) (hRest : rest ≠ [])
    (hTypes : ∀ target ∈ h.hop c step, target.HasType t) (hNext : h.Enters c step next) :
    next.type = t := by
  cases hNext with
  | value hTarget => exact hTypes _ hTarget
  | @pointer word declared _ hTarget hNull hNext =>
    obtain ⟨view, hView, rfl⟩ := Option.map_eq_some_iff.mp hNext
    have hDeclared : declared = t := hTypes _ hTarget
    -- the object tells no type, or the one that the pointer is declared with
    show (h.format.typeOf? view).getD declared = t
    rcases hAgree view declared (.here hTarget hNull hRest hView) with hNone | hSome
    · rw [hNone]
      exact hDeclared
    · rw [hSome]
      exact hDeclared

/-- Two walks meet the same when their first hops lead to the same, and they meet the same from there
on. -/
theorem walk_congr {step step' : WalkHop} {rest rest' : List WalkHop} {c : Cursor}
    (hHop : h.hop c step = h.hop c step') (hEnd : rest = [] ↔ rest' = [])
    (hNext : rest ≠ [] → ∀ next, h.Enters c step next → h.walk rest next = h.walk rest' next) :
    h.walk (step :: rest) c = h.walk (step' :: rest') c := by
  -- at their last hop walks follow nothing
  by_cases hRest : rest = []
  · subst hRest
    rw [hEnd.mp rfl, walk, walk, hHop]
  have hMore : rest.isEmpty = false := List.isEmpty_eq_false_iff.mpr hRest
  have hMore' : rest'.isEmpty = false := List.isEmpty_eq_false_iff.mpr fun hNil => hRest (hEnd.mpr hNil)
  rw [walk, walk, ← hHop]
  refine List.flatMap_congr fun target hTarget => ?_
  cases target with
  | missing name t => rfl
  | value next => exact hNext hRest next (.value hTarget)
  | pointer word declared =>
    dsimp only
    cases hNull : word.isNull with
    | true => rfl
    | false =>
      simp only [hMore, hMore', Bool.false_eq_true, if_false]
      cases hFollow : h.follow? word declared with
      | none => rfl
      | some next => exact hNext hRest next (.pointer hTarget hNull hFollow)

theorem Enters.congr {c next : Cursor} {step step' : WalkHop} (hHop : h.hop c step = h.hop c step')
    (hNext : h.Enters c step next) : h.Enters c step' next := by
  cases hNext with
  | value hTarget => exact .value (hHop ▸ hTarget)
  | pointer hTarget hNull hFollow => exact .pointer (hHop ▸ hTarget) hNull hFollow

/-- When no object tells another type than the declared one, two walks whose first hops lead to the
same have to agree on cursors of the declared type only. -/
theorem walk_congr_of_typesAgree {step step' : WalkHop} {rest rest' : List WalkHop} {c : Cursor}
    {t : Nat} (hHop : h.hop c step = h.hop c step') (hEnd : rest = [] ↔ rest' = [])
    (hTypes : ∀ target ∈ h.hop c step, target.HasType t)
    (hAgree : h.TypesAgree (step :: rest) c ∨ h.TypesAgree (step' :: rest') c)
    (hLater : ∀ next : Cursor, next.type = t → h.TypesAgree rest next ∨ h.TypesAgree rest' next →
      h.walk rest next = h.walk rest' next) :
    h.walk (step :: rest) c = h.walk (step' :: rest') c := by
  refine walk_congr hHop hEnd fun hRest next hNext => ?_
  -- either walk will do: both enter the same cursors
  rcases hAgree with hAgree | hAgree
  · exact hLater next (hAgree.type_eq hRest hTypes hNext) (.inl (hAgree.of_enters hNext))
  · have hRest' : rest' ≠ [] := fun hNil => hRest (hEnd.mpr hNil)
    have hNext' := hNext.congr hHop
    exact hLater next (hAgree.type_eq hRest' (hHop ▸ hTypes) hNext')
      (.inr (hAgree.of_enters hNext'))

end Heap

/-! ## Hops by name -/

theorem Layout.Leads.nil_iff {L : Layout} {t last : Nat} {hops : List Hop} {fixed : List StaticHop}
    (hLeads : L.Leads t hops fixed last) : hops = [] ↔ fixed = [] := by
  cases hLeads <;> simp

namespace Heap

variable {h : Heap}

/-- Along a path, the walk by names meets what the walk over the resolved hops does. -/
theorem walk_named_eq_walk_fixed {t last : Nat} {hops : List Hop} {fixed : List StaticHop}
    (hLeads : h.layout.Leads t hops fixed last) {c : Cursor} (hType : c.type = t)
    (hAgree : h.TypesAgree (hops.map .named) c ∨ h.TypesAgree (fixed.map .fixed) c) :
    h.walk (hops.map .named) c = h.walk (fixed.map .fixed) c := by
  -- along the path; what carries is that the cursor's type is the one the path has come to
  induction hLeads generalizing c with
  | here => rfl
  | @elements t element last hops fixed hElement hRest ih =>
    have hHop : h.hop c (.named .elements) = h.hop c (.fixed (.elements t)) := by
      simp only [hop, hType]
    refine walk_congr_of_typesAgree hHop (by simp [hRest.nil_iff]) ?_ hAgree fun _ => ih
    intro target hTarget
    rw [hHop] at hTarget
    exact hasType_of_mem_elementTargets hElement hTarget
  | @field t d f last name hops fixed hField hRest ih =>
    have hHop : h.hop c (.named (.field name)) = h.hop c (.fixed (.field d f)) := by
      simp only [hop, hType, hField]
    refine walk_congr_of_typesAgree hHop (by simp [hRest.nil_iff]) ?_ hAgree fun _ => ih
    intro target hTarget
    rw [hHop] at hTarget
    exact hasType_of_mem_fieldTargets hTarget

/-! ## Selectors -/

/-- Where a selector is walked from when it begins at `start` in the object at `anchor`. -/
def root? (h : Heap) (anchor : Word) (start : Nat) (s : Selector) : Option Cursor := do
  let first ← s.anchor?
  let view ← h.rootView? anchor start first
  return ⟨view, first.type, !h.layout.isValue first.type⟩

theorem walkAt_eq (anchor : Word) (start : Nat) (s : Selector) :
    h.walkAt anchor start s = (h.root? anchor start s).elim [] (h.walk s.walkHops) := by
  unfold walkAt root?
  cases s.anchor? with
  | none => rfl
  | some first => cases hView : h.rootView? anchor start first <;> simp [hView]

/-- The walk of a selector in the object at `anchor` meets no object that tells another type than the
declared one. -/
def TypesAgreeAt (h : Heap) (anchor : Word) (start : Nat) (s : Selector) : Prop :=
  ∀ c, h.root? anchor start s = some c → h.TypesAgree s.walkHops c

instance (anchor : Word) (start : Nat) (s : Selector) : Decidable (h.TypesAgreeAt anchor start s) :=
  match hRoot : h.root? anchor start s with
  | none => isTrue fun c hc => by simp [hRoot] at hc
  | some c =>
    decidable_of_iff (h.TypesAgree s.walkHops c) (by simp [TypesAgreeAt, hRoot])

/-- The selectors of a path, bound and left to the walk, meet the same from any place on. -/
theorem walkAt_dynamic_eq_static {t f last : Nat} {hops : List Hop} {fixed : List StaticHop}
    (hLeads : h.layout.Leads (h.layout.fieldType t f) hops fixed last) {anchor : Word} {start : Nat}
    (hAgree : h.TypesAgreeAt anchor start ⟨[.field t f], hops⟩ ∨
      h.TypesAgreeAt anchor start ⟨.field t f :: fixed, []⟩) :
    h.walkAt anchor start ⟨[.field t f], hops⟩ = h.walkAt anchor start ⟨.field t f :: fixed, []⟩ := by
  have hRoot : h.root? anchor start ⟨[.field t f], hops⟩ =
      h.root? anchor start ⟨.field t f :: fixed, []⟩ := rfl
  rw [walkAt_eq, walkAt_eq, hRoot]
  cases hCursor : h.root? anchor start ⟨.field t f :: fixed, []⟩ with
  | none => rfl
  | some c =>
    have hFixed : (⟨.field t f :: fixed, []⟩ : Selector).walkHops =
        .fixed (.field t f) :: fixed.map .fixed := by
      simp [Selector.walkHops]
    have hNamed : (⟨[.field t f], hops⟩ : Selector).walkHops =
        .fixed (.field t f) :: hops.map .named := rfl
    rw [Option.elim_some, Option.elim_some, hFixed, hNamed]
    refine walk_congr_of_typesAgree rfl (by simp [hLeads.nil_iff])
      (fun target => hasType_of_mem_fieldTargets) ?_ fun next => walk_named_eq_walk_fixed hLeads
    rw [← hFixed, ← hNamed]
    exact hAgree.imp (fun hNamed => hNamed c (hRoot ▸ hCursor)) fun hFixed => hFixed c hCursor

/-- Where the object at an anchor begins for a selector that is walked from type `t`: a value there is
boxed. -/
def objectStart (h : Heap) (t : Nat) : Nat :=
  if h.layout.isValue t then wrap64 h.layout.objectHeader else 0

/-- Two selectors that begin at the same field and meet the same resolve to the same. -/
theorem resolve_congr {anchor : Word} {t f : Nat} {s s' : Selector}
    (hAnchor : s.anchor? = some (.field t f)) (hAnchor' : s'.anchor? = some (.field t f))
    (hWalk : h.walkAt anchor (h.objectStart t) s = h.walkAt anchor (h.objectStart t) s') :
    h.resolve anchor s = h.resolve anchor s' := by
  simp only [resolve, hAnchor, hAnchor']
  show (if t < h.layout.count then
    Except.ok ((h.walkAt anchor (h.objectStart t) s).filterMap Encounter.found?) else _) = _
  rw [hWalk]
  rfl

theorem resolveFrom_congr {anchor : Word} {p : Pointer} {t f : Nat} {s s' : Selector}
    (hAnchor : s.anchor? = some (.field t f)) (hAnchor' : s'.anchor? = some (.field t f))
    (hWalk : h.walkAt anchor (p.position - (h.layout.fieldOffset t f true).toNatClampNeg) s =
      h.walkAt anchor (p.position - (h.layout.fieldOffset t f true).toNatClampNeg) s') :
    h.resolveFrom anchor p s = h.resolveFrom anchor p s' := by
  simp only [resolveFrom, walkFrom, hAnchor, hAnchor', hWalk]

end Heap

/-- A rule anchors one selector. -/
theorem Rule.selectors_of_anchor {r : Rule} {isValue : Bool} {s : Selector} {e : SlotEntry}
    (h : r.anchor isValue s = .ok e) : e.selectors = [s] := by
  unfold Rule.anchor at h
  cases hKind : r.kind with
  | external => simp [hKind] at h
  | tagIf tags zero => simp [hKind] at h
  | _ =>
    simp only [hKind, Except.ok.injEq] at h
    subst h
    rfl

/-- **A dynamic rule finds what its static variant finds.** Let a rule that is not dynamic bind its
path on a type. Then a dynamic rule binds the same path, at the same field and with the later hops by
name, and in every heap both selectors resolve to the same list of pointers, from an anchor and from
the slot of a pointer, provided that no object which the walk dereferences tells another type than
the declared one. -/
theorem Rule.resolve_dynamic_eq_static {L : Layout} {t f : Nat} {r r' : Rule} {e : SlotEntry}
    (hPath : r'.path = r.path) (hStatic : r.kind.isDynamic = false)
    (hDynamic : r'.kind.isDynamic = true) (hBind : r.bindPath L t = .ok (f, e)) :
    ∃ name hops s s' e', r.path.hops = .field name :: hops ∧ e.selectors = [s] ∧ s.tail = [] ∧
      r'.bindPath L t = .ok (f, e') ∧ e'.selectors = [s'] ∧ s' = ⟨[.field t f], hops⟩ ∧
      ∀ (h : Heap) (anchor : Word), h.layout = L →
        (h.TypesAgreeAt anchor (h.objectStart t) s' ∨ h.TypesAgreeAt anchor (h.objectStart t) s →
          h.resolve anchor s' = h.resolve anchor s) ∧
        ∀ p : Pointer, let start := p.position - (L.fieldOffset t f true).toNatClampNeg
          h.TypesAgreeAt anchor start s' ∨ h.TypesAgreeAt anchor start s →
            h.resolveFrom anchor p s' = h.resolveFrom anchor p s := by
  obtain ⟨name, hops, s, hHops, hField, hBound, hAnchor⟩ := bindPath_eq_ok_iff.mp hBind
  rw [hStatic] at hBound
  obtain ⟨fixed, last, hLeads, -, rfl⟩ := bindHops_eq_ok_iff.mp hBound
  have hSingle : r'.kind.requiresSingleField = false := by
    cases hKind : r'.kind <;> simp [hKind, RuleKind.isDynamic] at hDynamic <;> rfl
  obtain ⟨e', hAnchor'⟩ : ∃ e', r'.anchor (L.isValueField t f) ⟨[.field t f], hops⟩ = .ok e' :=
    anchor_ok_iff.mpr hSingle
  have hBind' : r'.bindPath L t = .ok (f, e') := by
    refine bindPath_eq_ok_iff.mpr ⟨name, hops, _, hPath ▸ hHops, hField, ?_, hAnchor'⟩
    rw [hDynamic]
    exact bindHops_dynamic L t f hops
  refine ⟨name, hops, _, _, e', hHops, selectors_of_anchor hAnchor, rfl, hBind',
    selectors_of_anchor hAnchor', rfl, ?_⟩
  rintro h anchor rfl
  refine ⟨fun hAgree => ?_, fun p hAgree => ?_⟩
  · exact Heap.resolve_congr rfl rfl (Heap.walkAt_dynamic_eq_static hLeads hAgree)
  · exact Heap.resolveFrom_congr rfl rfl (Heap.walkAt_dynamic_eq_static hLeads hAgree)

namespace Heap

/-- Holders mark what follows the second node of their pair. -/
def markSecond (dynamic : Bool) : Rule :=
  pairRule "Holder" (.tag ["hot"] dynamic) [.field "pair", .field "second", .field "next"]

/-- Both variants lead from the holder, over an embedded pair and a node, back to the holder. -/
theorem resolve_markSecond_of_holder :
    ∃ e e' s s', (markSecond false).bindPath pairLayout 2 = .ok (1, e) ∧ e.selectors = [s] ∧
      (markSecond true).bindPath pairLayout 2 = .ok (1, e') ∧ e'.selectors = [s'] ∧
      (pairHeap []).TypesAgreeAt (.ofNat .four 16) 0 s ∧
      (pairHeap []).resolve (.ofNat .four 16) s' = (pairHeap []).resolve (.ofNat .four 16) s ∧
      (pairHeap []).resolve (.ofNat .four 16) s = .ok [.ofNat .four 16] := by
  obtain ⟨e, hBind, hSelectors⟩ : ∃ e, (markSecond false).bindPath pairLayout 2 = .ok (1, e) ∧
      e.selectors = [⟨[.field 2 1, .field 1 1, .field 0 0], []⟩] := ⟨_, rfl, rfl⟩
  obtain ⟨-, -, s, s', e', -, hs, -, hBind', hs', -, hSame⟩ :=
    @Rule.resolve_dynamic_eq_static pairLayout 2 1 (markSecond false) (markSecond true) e rfl rfl rfl
      hBind
  rw [hSelectors, List.cons.injEq] at hs
  obtain ⟨rfl, -⟩ := hs
  have hAgree : (pairHeap []).TypesAgreeAt (.ofNat .four 16) 0
      ⟨[.field 2 1, .field 1 1, .field 0 0], []⟩ := by decide +kernel
  exact ⟨e, e', _, s', hBind, hSelectors, hBind', hs', hAgree,
    (hSame (pairHeap []) (.ofNat .four 16) rfl).1 (.inr hAgree), by cbv⟩

end Heap

end RefRules
