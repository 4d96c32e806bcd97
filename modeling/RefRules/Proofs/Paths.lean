import RefRules.Proofs.Outcome
import RefRules.Ruleset.Effect

/-!
# RefRules — where paths lead

A path leads along declared types: a name to the type of the field that has it, `[]` to the type of
the elements. `Layout.Leads` says so without a word on how a path is bound.

Main results:

* `resolveStatic_eq_ok_iff` — binding a path succeeds exactly when it leads somewhere, with the hops
  that it leads over;
* `Layout.findDeclared_eq_some_iff` — a declared name is that of the first field which has it.
-/

namespace RefRules

namespace Layout

variable {L : Layout}

/-! ## Declared fields -/

/-- Field `f` is the first field of type `t` with the name. -/
structure IsFirstDeclared (L : Layout) (t : Nat) (name : String) (f : Nat) : Prop where
  inRange : f < (L.fields t).length
  hasName : L.fieldName t f = name
  isFirst : ∀ g < f, L.fieldName t g ≠ name

/-- The name of a field in range is that of the field's record. -/
theorem fieldName_of_lt {t f : Nat} (h : f < (L.fields t).length) :
    L.fieldName t f = (L.fields t)[f].name := by
  simp [fieldName, field?, h]

/-- A type that there is not has no fields. -/
theorem findDeclared_eq_some_iff {t f : Nat} {name : String} :
    L.findDeclared t name = some f ↔ L.IsFirstDeclared t name f := by
  rw [findDeclared, List.findIdx?_eq_some_iff_getElem]
  constructor
  · rintro ⟨hRange, hName, hFirst⟩
    refine ⟨hRange, ?_, ?_⟩
    · rw [fieldName_of_lt hRange]
      exact eq_of_beq hName
    · intro g hg hEq
      rw [fieldName_of_lt (by omega)] at hEq
      exact hFirst g hg (beq_iff_eq.mpr hEq)
  · rintro ⟨hRange, hName, hFirst⟩
    refine ⟨hRange, ?_, ?_⟩
    · rw [beq_iff_eq, ← fieldName_of_lt hRange]
      exact hName
    · intro g hg hEq
      refine hFirst g hg ?_
      rw [fieldName_of_lt (by omega)]
      exact eq_of_beq hEq

/-! ## Paths -/

/-- From type `t` the hops lead over the fixed hops to type `last`. -/
inductive Leads (L : Layout) : Nat → List Hop → List StaticHop → Nat → Prop
  | here {t : Nat} : Leads L t [] [] t
  | elements {t element last : Nat} {hops : List Hop} {fixed : List StaticHop}
      (hElement : L.element? t = some element) (hRest : Leads L element hops fixed last) :
      Leads L t (.elements :: hops) (.elements t :: fixed) last
  | field {t d f last : Nat} {name : String} {hops : List Hop} {fixed : List StaticHop}
      (hField : L.findField t name = some (d, f)) (hRest : Leads L (L.fieldType d f) hops fixed last) :
      Leads L t (.field name :: hops) (.field d f :: fixed) last

end Layout

/-- Binding a path succeeds exactly when the path leads somewhere. -/
theorem resolveStatic_eq_ok_iff {L : Layout} {t last : Nat} {hops : List Hop}
    {fixed : List StaticHop} :
    resolveStatic L t hops = .ok (fixed, last) ↔ L.Leads t hops fixed last := by
  induction hops generalizing t fixed with
  | nil =>
    constructor
    · intro h
      simp only [resolveStatic, Except.ok.injEq, Prod.mk.injEq] at h
      obtain ⟨rfl, rfl⟩ := h
      exact .here
    · rintro ⟨⟩
      rfl
  | cons hop hops ih =>
    cases hop with
    | elements =>
      constructor
      · intro h
        cases hElement : L.element? t with
        | none => simp [resolveStatic, hElement] at h
        | some element =>
          simp only [resolveStatic, hElement, map_eq_ok_iff, Prod.mk.injEq] at h
          obtain ⟨⟨rest, type⟩, hRest, rfl, rfl⟩ := h
          exact .elements hElement (ih.mp hRest)
      · rintro (_ | ⟨hElement, hRest⟩)
        simp [resolveStatic, hElement, map_eq_ok_iff, ih.mpr hRest]
    | field name =>
      constructor
      · intro h
        cases hField : L.findField t name with
        | none => simp [resolveStatic, hField] at h
        | some slot =>
          obtain ⟨d, f⟩ := slot
          simp only [resolveStatic, hField, map_eq_ok_iff, Prod.mk.injEq] at h
          obtain ⟨⟨rest, type⟩, hRest, rfl, rfl⟩ := h
          exact .field hField (ih.mp hRest)
      · rintro (_ | _ | ⟨hField, hRest⟩)
        simp [resolveStatic, hField, map_eq_ok_iff, ih.mpr hRest]

/-- The hops of a dynamic rule are left to the walk. -/
theorem bindHops_dynamic (L : Layout) (t f : Nat) (hops : List Hop) :
    bindHops L true t f hops = .ok ⟨[.field t f], hops⟩ := rfl

/-- The hops of another rule are bound exactly when they lead to a reference type. -/
theorem bindHops_eq_ok_iff {L : Layout} {t f : Nat} {hops : List Hop} {s : Selector} :
    bindHops L false t f hops = .ok s ↔
      ∃ fixed last, L.Leads (L.fieldType t f) hops fixed last ∧ L.isValue last = false ∧
        s = ⟨.field t f :: fixed, []⟩ := by
  constructor
  · intro h
    cases hRest : resolveStatic L (L.fieldType t f) hops with
    | error fault => simp [bindHops, hRest] at h
    | ok r =>
      cases hValue : L.isValue r.2 with
      | true => simp [bindHops, hRest, hValue] at h
      | false =>
        simp only [bindHops, hRest, hValue, Bool.false_eq_true, if_false, Except.ok.injEq] at h
        exact ⟨r.1, r.2, resolveStatic_eq_ok_iff.mp hRest, hValue, h.symm⟩
  · rintro ⟨fixed, last, hLeads, hValue, rfl⟩
    simp [bindHops, resolveStatic_eq_ok_iff.mpr hLeads, hValue]

end RefRules
