import RefRules.Selector
import RefRules.Rule.Basic

/-!
# RefRules — what rules say about a slot

Everything that the rules say about one slot is a `SlotEntry`: its classification, where that comes
from, and the anchors and tags that hang on it. The entries of several rules merge in their order
(`SlotEntry.mergeAll`).
-/

namespace RefRules

/-! ## Anchors -/

/-- A selector whose targets are owned, or held weakly, with a weight. -/
structure WeightAnchor where
  selector : Selector
  weight : Int
  location : Location
  deriving DecidableEq

/-- A selector whose targets get tags. -/
structure TagAnchor where
  selector : Selector
  tags : List String
  location : Location
  deriving DecidableEq

/-- A selector whose targets are fused with the object of the slot. -/
structure ConditionAnchor where
  selector : Selector
  location : Location
  deriving DecidableEq

/-! ## Tag lists -/

/-- The tags of `a`, then those of `b` that are new, each once. -/
def mergeTags (a b : List String) : List String :=
  b.foldl (fun tags tag => if tags.contains tag then tags else tags ++ [tag]) a

/-! ## Entries -/

structure SlotEntry where
  flags : Flags
  location : Location
  weights : List WeightAnchor := []
  tags : List TagAnchor := []
  conditions : List ConditionAnchor := []
  zeroTags : List String := []
  nonzeroTags : List String := []
  deriving DecidableEq

namespace SlotEntry

/-- The entry of earlier rules with that of later ones. The location is that of the rule that set
the weight, or else of the first rule. -/
def merge (a b : SlotEntry) : SlotEntry where
  flags := a.flags.combine b.flags
  location := if a.flags.weight.natAbs < b.flags.weight.natAbs then b.location else a.location
  weights := a.weights ++ b.weights
  tags := a.tags ++ b.tags
  conditions := a.conditions ++ b.conditions
  zeroTags := mergeTags a.zeroTags b.zeroTags
  nonzeroTags := mergeTags a.nonzeroTags b.nonzeroTags

/-- The entry of all rules in turn. -/
def mergeAll : List SlotEntry → Option SlotEntry
  | [] => none
  | e :: es => some (es.foldl merge e)

end SlotEntry

end RefRules
