import RefRules.Proofs.Nesting

/-!
# RefRules — fields along base types

A name is looked for on a type and then on its base types, up to one that has none or is an array. The
chain of these types holds no type twice, so it is no longer than the table, and the search comes to
its end before its bound does: a field that is hidden by no nearer one is found, however far away.

Main results:

* `Layout.IsBaseChain.length_le` — a chain has at most as many types as there are;
* `Layout.findFrom_eq_findSome?` — with a bound that covers the chain, the search looks at all of it;
* `Layout.findField_nearest` — which field is found, and when none is.
-/

namespace RefRules

namespace Layout

variable {L : Layout} {t b u : Nat} {name : String} {chain : List Nat}

/-! ## Chains -/

/-- The types from `t` on, behind each its base type. The last one has no base type, or it is an array,
whose elements do not count. -/
inductive IsBaseChain (L : Layout) : Nat → List Nat → Prop
  | last {t : Nat} (hEnd : L.isArray t = true ∨ L.related? t = none) : IsBaseChain L t [t]
  | base {t b : Nat} {chain : List Nat} (hNoArray : L.isArray t = false)
      (hBase : L.related? t = some b) (hRest : IsBaseChain L b chain) : IsBaseChain L t (t :: chain)

theorem base?_eq_none_iff : L.base? t = none ↔ L.isArray t = true ∨ L.related? t = none := by
  unfold base? isArray related?
  cases L.types[t]? with
  | none => simp
  | some type => simp [TypeInfo.base?, or_iff_not_imp_left]

theorem base?_eq_some_iff : L.base? t = some b ↔ L.isArray t = false ∧ L.related? t = some b := by
  unfold base? isArray related?
  cases L.types[t]? with
  | none => simp
  | some type => simp [TypeInfo.base?]

/-- Every type has a chain, since base types come to an end. -/
theorem exists_isBaseChain (L : Layout) (t : Nat) : ∃ chain, L.IsBaseChain t chain := by
  -- on the depth, which falls from a type to its base type
  induction hDepth : L.depth t using Nat.strong_induction_on generalizing t with
  | _ depth ih =>
    subst hDepth
    cases hBase : L.base? t with
    | none => exact ⟨[t], .last (base?_eq_none_iff.mp hBase)⟩
    | some b =>
      obtain ⟨chain, hRest⟩ := ih _ (depth_lt_of_base? hBase) b rfl
      obtain ⟨hNoArray, hRelated⟩ := base?_eq_some_iff.mp hBase
      exact ⟨t :: chain, .base hNoArray hRelated hRest⟩

theorem IsBaseChain.depth_le (h : L.IsBaseChain t chain) : ∀ u ∈ chain, L.depth u ≤ L.depth t := by
  induction h with
  | last => simp
  | base hNoArray hBase _ ih =>
    have hDepth := depth_lt_of_base? (base?_eq_some_iff.mpr ⟨hNoArray, hBase⟩)
    refine List.forall_mem_cons.mpr ⟨Nat.le_refl _, fun u hu => ?_⟩
    exact Nat.le_trans (ih u hu) (Nat.le_of_lt hDepth)

/-- No type comes twice: behind a type there are only types of less depth. -/
theorem IsBaseChain.nodup (h : L.IsBaseChain t chain) : chain.Nodup := by
  induction h with
  | last => exact List.nodup_singleton _
  | base hNoArray hBase hRest ih =>
    have hDepth := depth_lt_of_base? (base?_eq_some_iff.mpr ⟨hNoArray, hBase⟩)
    refine List.nodup_cons.mpr ⟨fun hMem => ?_, ih⟩
    have := hRest.depth_le _ hMem
    omega

theorem IsBaseChain.lt_count (h : L.IsBaseChain t chain) (ht : t < L.count) :
    ∀ u ∈ chain, u < L.count := by
  induction h with
  | last => simpa using ht
  | base hNoArray hBase _ ih =>
    have hEmbeds := Embeds.base (base?_eq_some_iff.mpr ⟨hNoArray, hBase⟩)
    exact List.forall_mem_cons.mpr ⟨ht, ih hEmbeds.lt_count.2⟩

/-- A chain has at most as many types as there are. -/
theorem IsBaseChain.length_le (h : L.IsBaseChain t chain) (ht : t < L.count) :
    chain.length ≤ L.count :=
  length_le_of_nodup_of_lt h.nodup (h.lt_count ht)

/-! ## The search -/

/-- Some field of type `t` has the name. -/
def Declares (L : Layout) (t : Nat) (name : String) : Prop :=
  ∃ f < (L.fields t).length, L.fieldName t f = name

theorem findDeclared_eq_none_iff : L.findDeclared t name = none ↔ ¬L.Declares t name := by
  rw [findDeclared, List.findIdx?_eq_none_iff, Declares, List.forall_mem_iff_getElem]
  simp only [beq_eq_false_iff_ne, not_exists, not_and]
  refine forall₂_congr fun f hf => ?_
  rw [fieldName_of_lt hf]

/-- With a bound that covers the chain, the search looks at all its types until one has the field. -/
theorem findFrom_eq_findSome? (h : L.IsBaseChain t chain) {fuel : Nat} (hFuel : chain.length ≤ fuel) :
    L.findFrom name fuel t = chain.findSome? fun u => (L.findDeclared u name).map (u, ·) := by
  -- along the chain; a step to the base type takes one from the bound, which still covers the rest
  induction h generalizing fuel with
  | @last t hEnd =>
    cases fuel with
    | zero => cases hFuel
    | succ fuel =>
      rw [findFrom, base?_eq_none_iff.mpr hEnd]
      cases hDeclared : L.findDeclared t name <;> simp [hDeclared]
  | @base t b chain hNoArray hBase _ ih =>
    cases fuel with
    | zero => cases hFuel
    | succ fuel =>
      rw [findFrom, base?_eq_some_iff.mpr ⟨hNoArray, hBase⟩, List.findSome?_cons]
      cases hDeclared : L.findDeclared t name with
      | some f => rfl
      | none => exact ih (Nat.le_of_succ_le_succ hFuel)

/-- Type `d` declares the name, and no type before it on the chain does. -/
structure IsNearest (L : Layout) (chain : List Nat) (name : String) (d : Nat) : Prop where
  declares : L.Declares d name
  isFirst : ∃ before after, chain = before ++ d :: after ∧ ∀ u ∈ before, ¬L.Declares u name

theorem IsFirstDeclared.declares {d f : Nat} (h : L.IsFirstDeclared d name f) : L.Declares d name :=
  ⟨f, h.inRange, h.hasName⟩

/-- **The field of a name is the nearest one.** The types from a type on along its base types come to
an end, after no more types than there are. The field that is found is the first one of the name on the
first of these types that declares the name, and none is found exactly when none of them does: the
search finds nothing else with a larger bound. -/
theorem findField_nearest (L : Layout) (name : String) {t : Nat} (ht : t < L.count) :
    (∃ chain, L.IsBaseChain t chain ∧ chain.length ≤ L.count) ∧
      ∀ chain, L.IsBaseChain t chain →
        (∀ d f, L.findField t name = some (d, f) ↔
          L.IsNearest chain name d ∧ L.IsFirstDeclared d name f) ∧
        (L.findField t name = none ↔ ∀ u ∈ chain, ¬L.Declares u name) ∧
        ∀ fuel, L.count ≤ fuel → L.findFrom name fuel t = L.findField t name := by
  obtain ⟨chain, hChain⟩ := L.exists_isBaseChain t
  refine ⟨⟨chain, hChain, hChain.length_le ht⟩, fun chain hChain => ?_⟩
  have hLength := hChain.length_le ht
  -- the search as one over the chain, with no bound in it
  have hSearch : L.findField t name = chain.findSome? fun u => (L.findDeclared u name).map (u, ·) :=
    findFrom_eq_findSome? hChain (Nat.le_succ_of_le hLength)
  refine ⟨fun d f => ?_, ?_, fun fuel hFuel => ?_⟩
  · rw [hSearch, List.findSome?_eq_some_iff]
    simp only [Option.map_eq_some_iff, Option.map_eq_none_iff, Prod.mk.injEq, findDeclared_eq_none_iff]
    constructor
    · rintro ⟨before, u, after, hSplit, ⟨g, hFound, rfl, rfl⟩, hBefore⟩
      have hFirst := findDeclared_eq_some_iff.mp hFound
      exact ⟨⟨hFirst.declares, before, after, hSplit, hBefore⟩, hFirst⟩
    · rintro ⟨⟨-, before, after, hSplit, hBefore⟩, hFirst⟩
      exact ⟨before, d, after, hSplit, ⟨f, findDeclared_eq_some_iff.mpr hFirst, rfl, rfl⟩, hBefore⟩
  · rw [hSearch, List.findSome?_eq_none_iff]
    simp only [Option.map_eq_none_iff, findDeclared_eq_none_iff]
  · -- any bound from the number of types on covers the chain as well
    rw [hSearch, findFrom_eq_findSome? hChain (Nat.le_trans hLength hFuel)]

/-- A cell extends a row, and a row an array of objects. A row has two fields of one name. -/
def rowLayout : Layout where
  wordSize := .eight
  objectHeader := 16
  arrayHeader := 24
  types :=
    [⟨"", "Object", false, false, none, 16, [⟨"id", 0, 0, false, none⟩], none⟩,
      ⟨"", "Object[]", false, true, some 0, 24, [⟨"len", 0, 0, false, none⟩], none⟩,
      ⟨"", "Row", false, false, some 1, 40,
        [⟨"key", 0, 0, false, none⟩, ⟨"key", 0, 8, false, none⟩], none⟩,
      ⟨"", "Cell", false, false, some 2, 48, [⟨"next", 3, 16, false, none⟩], none⟩]
  sound := by decide

/-- Of the two fields the first is found; the fields of an object are not, behind the array. -/
theorem findField_nearest_cell :
    3 < rowLayout.count ∧ rowLayout.IsBaseChain 3 [3, 2, 1] ∧
      rowLayout.findField 3 "key" = some (2, 0) ∧ rowLayout.findField 3 "id" = none := by
  have hCell : 3 < rowLayout.count := by decide
  have hChain : rowLayout.IsBaseChain 3 [3, 2, 1] :=
    .base rfl rfl (.base rfl rfl (.last (.inl rfl)))
  have hNone : ∀ u ∈ [3, 2, 1], ¬rowLayout.Declares u "id" := by
    simp only [← findDeclared_eq_none_iff]
    decide
  have hKey : rowLayout.IsFirstDeclared 2 "key" 0 := findDeclared_eq_some_iff.mp (by decide)
  have hNearest : rowLayout.IsNearest [3, 2, 1] "key" 2 := by
    refine ⟨hKey.declares, [3], [1], rfl, List.forall_mem_singleton.mpr ?_⟩
    exact findDeclared_eq_none_iff.mp (by decide)
  exact ⟨hCell, hChain,
    (((findField_nearest rowLayout "key" hCell).2 _ hChain).1 2 0).mpr ⟨hNearest, hKey⟩,
    ((findField_nearest rowLayout "id" hCell).2 _ hChain).2.1.mpr hNone⟩

end Layout

end RefRules
