/-!
# RefRules — classifications of pointer slots

What the rules say about a slot is a set of `Marks` and a signed weight. Positive weights own
their target, negative weights mark weak references. Classifications combine: marks unite, and
the weight of the larger magnitude wins.
-/

namespace RefRules

/-- The marks that a slot can carry. -/
structure Marks where
  untraced : Bool := false
  external : Bool := false
  conditionAnchor : Bool := false
  weightAnchor : Bool := false
  tagAnchor : Bool := false
  tagIfZero : Bool := false
  tagIfNonzero : Bool := false
  deriving DecidableEq

namespace Marks

/-- No mark. -/
def empty : Marks := {}

def union (a b : Marks) : Marks where
  untraced := a.untraced || b.untraced
  external := a.external || b.external
  conditionAnchor := a.conditionAnchor || b.conditionAnchor
  weightAnchor := a.weightAnchor || b.weightAnchor
  tagAnchor := a.tagAnchor || b.tagAnchor
  tagIfZero := a.tagIfZero || b.tagIfZero
  tagIfNonzero := a.tagIfNonzero || b.tagIfNonzero

instance : Union Marks := ⟨union⟩

/-- Every mark with its name, in the order of the bits. -/
def named (m : Marks) : List (String × Bool) :=
  [("UNTRACED", m.untraced), ("IS_EXTERNAL_REFERENCE", m.external),
   ("IS_CONDITION_ANCHOR", m.conditionAnchor), ("IS_WEIGHT_ANCHOR", m.weightAnchor),
   ("IS_TAG_ANCHOR", m.tagAnchor), ("TAG_IF_ZERO", m.tagIfZero),
   ("TAG_IF_NONZERO", m.tagIfNonzero)]

/-- The names of the marks that are set. -/
def names (m : Marks) : List String :=
  (m.named.filter (·.2)).map (·.1)

/-- The marks as a number, the first mark in the lowest bit. -/
def bits (m : Marks) : Nat :=
  m.named.foldr (fun mark n => mark.2.toNat + 2 * n) 0

/-- Every mark of `b` is set in `a`. -/
def contains (a b : Marks) : Bool :=
  a ∪ b == a

/-- The set of one mark. -/
def ofName? : String → Option Marks
  | "UNTRACED" => some { untraced := true }
  | "IS_EXTERNAL_REFERENCE" => some { external := true }
  | "IS_CONDITION_ANCHOR" => some { conditionAnchor := true }
  | "IS_WEIGHT_ANCHOR" => some { weightAnchor := true }
  | "IS_TAG_ANCHOR" => some { tagAnchor := true }
  | "TAG_IF_ZERO" => some { tagIfZero := true }
  | "TAG_IF_NONZERO" => some { tagIfNonzero := true }
  | _ => none

theorem union_assoc (a b c : Marks) : a ∪ b ∪ c = a ∪ (b ∪ c) := by
  simp [Union.union, union, Bool.or_assoc]

theorem union_comm (a b : Marks) : a ∪ b = b ∪ a := by
  simp [Union.union, union, Bool.or_comm]

@[simp] theorem union_self (a : Marks) : a ∪ a = a := by
  simp [Union.union, union]

@[simp] theorem union_empty (a : Marks) : a ∪ empty = a := by
  simp [Union.union, union, empty]

@[simp] theorem empty_union (a : Marks) : empty ∪ a = a := by
  simp [Union.union, union, empty]

end Marks

/-- The classification of a slot. -/
structure Flags where
  marks : Marks := {}
  weight : Int := 0
  deriving DecidableEq

/-- The largest magnitude of a stored weight. -/
def maxWeight : Int := 127

/-- The nearest weight that can be stored. -/
def clampWeight (w : Int) : Int :=
  max (-maxWeight) (min maxWeight w)

namespace Flags

/-- No classification. -/
def empty : Flags := {}

def ofMarks (m : Marks) : Flags :=
  { marks := m }

/-- The same marks with the weight `w`, clamped. -/
def withWeight (f : Flags) (w : Int) : Flags :=
  { f with weight := clampWeight w }

def withoutWeight (f : Flags) : Flags :=
  { f with weight := 0 }

def insert (f : Flags) (m : Marks) : Flags :=
  { f with marks := f.marks ∪ m }

def isDefault (f : Flags) : Bool :=
  f == empty

def isOwning (f : Flags) : Bool :=
  decide (0 < f.weight)

def isWeak (f : Flags) : Bool :=
  decide (f.weight < 0)

def contains (f g : Flags) : Bool :=
  f.marks.contains g.marks

/-- The weight of the larger magnitude; of two equal magnitudes the first. -/
def heavier (a b : Int) : Int :=
  if a.natAbs < b.natAbs then b else a

/-- The marks of both, and the heavier weight. -/
def combine (f g : Flags) : Flags where
  marks := f.marks ∪ g.marks
  weight := heavier f.weight g.weight

/-- The names of the marks and the weight, between bars. -/
def text (f : Flags) : String :=
  let weight := if f.weight = 0 then [] else [s!"weight({f.weight})"]
  match f.marks.names ++ weight with
  | [] => "NONE"
  | parts => "|".intercalate parts

theorem heavier_assoc (a b c : Int) : heavier (heavier a b) c = heavier a (heavier b c) := by
  grind [heavier]

theorem combine_assoc (f g h : Flags) : (f.combine g).combine h = f.combine (g.combine h) := by
  simp [combine, Marks.union_assoc, heavier_assoc]

@[simp] theorem weight_empty : empty.weight = 0 := rfl

@[simp] theorem combine_empty (f : Flags) : f.combine empty = f := by
  simp [combine, empty, heavier, Union.union, Marks.union]

@[simp] theorem empty_combine (f : Flags) : empty.combine f = f := by
  have hWeight : heavier 0 f.weight = f.weight := by grind [heavier]
  simp [combine, empty, hWeight, Union.union, Marks.union]

end Flags

end RefRules
