import Mathlib
import RefRules.Layout.Basic

/-!
# RefRules — chains of base types

The base types of every type of a table end within one step more than there are types, if and only
if no type is its own base type over any number of steps: a longer chain comes back to one of its
types. In a sound layout every type has a depth, the number of types from it to the end of its chain,
and a base type is less deep.

Main results:

* `forall_endsWithin_iff` — chains end where no type comes back to itself;
* `Layout.depth_lt_of_base?` — the depth falls along the chain.
-/

namespace RefRules

open Relation (ReflTransGen TransGen)

/-- Distinct numbers below a bound are no more than the bound. -/
theorem length_le_of_nodup_of_lt {l : List Nat} {n : Nat} (hNodup : l.Nodup) (h : ∀ v ∈ l, v < n) :
    l.length ≤ n := by
  have hSubset : l ⊆ List.range n := fun v hv => List.mem_range.mpr (h v hv)
  have hLength := (List.subperm_of_subset hNodup hSubset).length_le
  rwa [List.length_range] at hLength

/-! ## Chains of a table -/

section

variable {types : List TypeInfo} {t b : Nat}

/-- Type `t` is no array, and `b` is its base type. -/
def HasBase (types : List TypeInfo) (t b : Nat) : Prop :=
  (types[t]?).bind TypeInfo.base? = some b

theorem HasBase.lt (h : HasBase types t b) : t < types.length := by
  obtain ⟨info, hInfo, -⟩ := Option.bind_eq_some_iff.mp h
  exact (List.getElem?_eq_some_iff.mp hInfo).1

theorem HasBase.endsWithin_succ (h : HasBase types t b) (n : Nat) :
    endsWithin types (n + 1) t = endsWithin types n b := by
  have hBase : (types[t]?).bind TypeInfo.base? = some b := h
  rw [endsWithin, hBase]

/-- The chain of a type that comes back to itself does not end. -/
theorem endsWithin_of_cycle (h : TransGen (HasBase types) t t) (n : Nat) :
    endsWithin types n t = false := by
  induction n generalizing t with
  | zero => rfl
  | succ n ih =>
    -- the base type comes back to itself too
    obtain ⟨b, hBase, hBack⟩ := TransGen.head'_iff.mp h
    rw [hBase.endsWithin_succ]
    exact ih (TransGen.tail' hBack hBase)

/-- A chain that does not end within `n` types goes through `n` types, from each to all behind it. -/
theorem exists_chain_of_endsWithin {n : Nat} (h : endsWithin types n t = false) :
    ∃ chain : List Nat, chain.length = n ∧ chain.Pairwise (TransGen (HasBase types)) ∧
      ∀ v ∈ chain, v < types.length ∧ ReflTransGen (HasBase types) t v := by
  induction n generalizing t with
  | zero => exact ⟨[], rfl, .nil, nofun⟩
  | succ n ih =>
    cases hBase : (types[t]?).bind TypeInfo.base? with
    | none => simp [endsWithin, hBase] at h
    | some b =>
      have hBase : HasBase types t b := hBase
      rw [hBase.endsWithin_succ] at h
      obtain ⟨chain, rfl, hPairs, hChain⟩ := ih h
      refine ⟨t :: chain, rfl, List.pairwise_cons.mpr ⟨fun v hv => ?_, hPairs⟩,
        List.forall_mem_cons.mpr ⟨⟨hBase.lt, .refl⟩, fun v hv => ?_⟩⟩
      · exact .head' hBase (hChain v hv).2
      · exact ⟨(hChain v hv).1, .head hBase (hChain v hv).2⟩

/-- **Ends of chains.** The base types of every type end, if and only if no type comes back to itself
along them. -/
theorem forall_endsWithin_iff :
    (∀ t < types.length, endsWithin types (types.length + 1) t = true) ↔
      ∀ t, ¬TransGen (HasBase types) t t := by
  constructor
  · intro hEnds t hCycle
    obtain ⟨b, hBase, -⟩ := TransGen.head'_iff.mp hCycle
    have hEnd := hEnds t hBase.lt
    rw [endsWithin_of_cycle hCycle] at hEnd
    cases hEnd
  · intro hAcyclic t _
    by_contra hEnd
    obtain ⟨chain, hLength, hPairs, hChain⟩ :=
      exists_chain_of_endsWithin (Bool.eq_false_of_not_eq_true hEnd)
    -- the chain has one type more than there are, so that two of them are one type
    have hNodup : chain.Nodup := by
      refine List.nodup_iff_pairwise_ne.mpr (hPairs.imp ?_)
      rintro v w hReach rfl
      exact hAcyclic v hReach
    have hCount := length_le_of_nodup_of_lt hNodup fun v hv => (hChain v hv).1
    omega

theorem cycleFault?_eq_none_iff :
    cycleFault? types = none ↔ ∀ t, ¬TransGen (HasBase types) t t := by
  rw [← forall_endsWithin_iff, cycleFault?, Option.map_eq_none_iff, List.find?_eq_none,
    List.forall_mem_zipIdx']
  simp only [Bool.not_eq_true', Bool.not_eq_false]

end

/-! ## Chains of a layout -/

namespace Layout

variable {L : Layout}

/-- The base types of every type end, also of a number that is no type. -/
theorem exists_endsWithin (L : Layout) (t : Nat) : ∃ n, endsWithin L.types n t = true := by
  by_cases hType : t < L.types.length
  · have hSound := L.sound
    rw [isSound, Bool.and_eq_true, List.all_eq_true, List.all_eq_true] at hSound
    exact ⟨_, hSound.2 t (List.mem_range.mpr hType)⟩
  · have hNone : L.types[t]? = none := List.getElem?_eq_none (Nat.le_of_not_lt hType)
    exact ⟨1, by simp [endsWithin, hNone]⟩

/-- How many types there are from `t` to the end of its chain, both included. -/
def depth (L : Layout) (t : Nat) : Nat :=
  Nat.find (L.exists_endsWithin t)

theorem depth_lt_of_base? {t b : Nat} (h : L.base? t = some b) : L.depth b < L.depth t := by
  have hEnds : endsWithin L.types (L.depth t) t = true := Nat.find_spec (L.exists_endsWithin t)
  cases hDepth : L.depth t with
  | zero => rw [hDepth] at hEnds; cases hEnds
  | succ n =>
    rw [hDepth] at hEnds
    -- one step less suffices from the base type on
    have hBase : (L.types[t]?).bind TypeInfo.base? = some b := h
    have hRest : endsWithin L.types n b = true := by simpa [endsWithin, hBase] using hEnds
    exact Nat.lt_succ_of_le (Nat.find_min' (L.exists_endsWithin b) hRest)

end Layout

end RefRules
