import RefRules.View

/-!
# RefRules — the address space of a snapshot

A `Segment` maps a view to an address; a `Snapshot` is an ordered list of segments that do not
overlap. Addresses are looked up by bisection.

Main definitions:

* `Snapshot.ofSegments` — accepts segments that fit the address space, in order, without overlap;
* `Segment.locate` — the segment that contains an address;
* `Snapshot.viewAt?` — the memory from an address to the end of its segment.
-/

namespace RefRules

/-! ## Segments -/

/-- A contiguous range of snapshot memory: managed heap, or runtime type information. -/
structure Segment where
  start : Word
  view : View
  isTypeInformation : Bool := false

namespace Segment

def size (s : Segment) : Nat :=
  s.view.size

/-- The address after the last byte, wrapping at the top of the address space. -/
def stop (s : Segment) : Word :=
  s.start.add s.size

def contains (s : Segment) (address : Word) : Bool :=
  decide (s.start.value ≤ address.value ∧ address.value - s.start.value < s.size)

def text (s : Segment) : String :=
  let kind := if s.isTypeInformation then "rtti" else "heap"
  s!"[{s.start.text}, {s.stop.text}) {kind} ({s.size} bytes)"

/-- Bisection between `low` and `high` for the segment that contains `address`. -/
def bisect (segments : Array Segment) (address : Word) (low high : Nat) : Option Segment :=
  if low < high then
    let mid := low + (high - low) / 2
    match segments[mid]? with
    | none => none
    | some segment =>
      if address < segment.start then bisect segments address low mid
      else if segment.contains address then some segment
      else bisect segments address (mid + 1) high
  else
    none
  termination_by high - low

/-- The segment that contains `address`, among segments in the order of their starts. -/
def locate (segments : Array Segment) (address : Word) : Option Segment :=
  bisect segments address 0 segments.size

end Segment

/-! ## Errors -/

/-- Why a heap cannot be built or read. -/
inductive HeapError where
  | memory (cause : MemoryError)
  | unordered (previous start : Nat)
  | overlapping (previousStart previousStop start : Nat)
  | overflow (start : Nat)
  | invalidType (index : Int)
  deriving DecidableEq

def HeapError.message : HeapError → String
  | .memory cause => "Memory error: " ++ cause.message
  | .unordered previous start =>
    s!"Segment at {Numeral.hex start} is not ordered after segment at {Numeral.hex previous}"
  | .overlapping previousStart previousStop start =>
    s!"Segment at {Numeral.hex start} overlaps segment " ++
      s!"[{Numeral.hex previousStart}, {Numeral.hex previousStop})"
  | .overflow start => s!"Segment at {Numeral.hex start} extends past the end of the address space"
  | .invalidType index => s!"Invalid type index {index}"

/-! ## Snapshots -/

/-- The mapped memory of a process. -/
structure Snapshot where
  wordSize : WordSize
  segments : Array Segment

/-- The end of the range from `start` over `size` bytes; it stops at the last 64-bit number. -/
def saturatedStop (start size : Nat) : Nat :=
  min (start + size) (Numeral.limit64 - 1)

namespace Snapshot

/-- The first segment that leaves the address space. -/
def overflowError? (wordSize : WordSize) (segments : List Segment) : Option HeapError :=
  (segments.find? fun s => decide (wordSize.limit < s.start.value + s.size)).map
    fun s => .overflow s.start.value

/-- What is wrong with two segments that follow each other. -/
def neighbourError? (previous current : Segment) : Option HeapError :=
  let previousStop := saturatedStop previous.start.value previous.size
  if current.start ≤ previous.start then
    some (.unordered previous.start.value current.start.value)
  else if current.start.value < previousStop then
    some (.overlapping previous.start.value previousStop current.start.value)
  else
    none

/-- The first fault between neighbours. -/
def orderError? : List Segment → Option HeapError
  | previous :: current :: rest =>
    (neighbourError? previous current).or (orderError? (current :: rest))
  | _ => none

/-- The snapshot of these segments, when they fit the address space, are in order and do not
overlap. -/
def ofSegments (wordSize : WordSize) (segments : List Segment) : Except HeapError Snapshot :=
  match (overflowError? wordSize segments).or (orderError? segments) with
  | some e => .error e
  | none => .ok ⟨wordSize, segments.toArray⟩

def segmentAt? (s : Snapshot) (address : Word) : Option Segment :=
  Segment.locate s.segments address

/-- The memory from `address` to the end of its segment. -/
def viewAt? (s : Snapshot) (address : Word) : Option View := do
  let segment ← s.segmentAt? address
  let distance ← address.offsetFrom? segment.start
  (segment.view.tail distance).toOption

end Snapshot

end RefRules
