import ConferenceBadge.Service.Basic

/-!
The roster of started services: their slots in the order in which they were started, and the slots
that still draw.
-/
namespace ConferenceBadge.Service

/-- A started service. -/
structure Slot (σ : Type) where
  name : AppName
  manifest : Manifest
  service : σ
  /-- the handle of its loop while that is registered -/
  loopTask : Option Handle
  /-- whether it still draws -/
  draws : Bool

/-- The started services. -/
structure Roster (σ : Type) where
  config : Config
  /-- how many services there is room for -/
  capacity : Nat
  slots : List (Slot σ)
  /-- the slots that still draw, in order -/
  drawList : List Nat
  /-- the handle of the drawing task while that is registered -/
  drawingTask : Option Handle

namespace Roster

variable {σ : Type}

/-- How many services a roster has room for unless told otherwise. -/
def defaultCapacity : Nat := 8

/-- Slot numbers stay below this. -/
def slotNumbers : Nat := 256

def empty (capacity : Nat) (config : Config) : Roster σ :=
  { config, capacity, slots := [], drawList := [], drawingTask := none }

def hasRoom (r : Roster σ) : Bool := r.slots.length < slotNumbers && r.slots.length < r.capacity

def modify (r : Roster σ) (slot : Nat) (f : Slot σ → Slot σ) : Roster σ :=
  { r with slots := r.slots.modify slot f }

end Roster
end ConferenceBadge.Service
