import ConferenceBadge.Scheduler.Basic

/-!
What the board publishes about itself: the tick period, for the timer that delivers ticks, and
counters that start over after the last 32-bit number. The period is published in whole
milliseconds, and zero of them stands for a stopped timer.
-/
namespace ConferenceBadge.Board

/-- The tick period as the timer finds it. -/
structure PublishedPeriod where
  millis : UInt32
deriving DecidableEq

namespace PublishedPeriod

def stopped : PublishedPeriod := ⟨0⟩

/-- The largest number of milliseconds that can be published. -/
def most : Nat := 4294967295

/-- A period in whole milliseconds, at least one of them and at most as many as can be published. -/
def ofPeriod (period : Duration) : PublishedPeriod := ⟨UInt32.ofNat (max (min period.millis most) 1)⟩

/-- A period, or a stopped timer. -/
def ofPeriod? : Option Duration → PublishedPeriod
  | some period => ofPeriod period
  | none => stopped

/-- The period that the timer waits, if it runs. -/
def period? (p : PublishedPeriod) : Option Duration :=
  if p.millis = 0 then none else some (.ofMillis p.millis.toNat)

instance : TickTimer PublishedPeriod where
  start _ period := ofPeriod period
  stop _ := stopped

end PublishedPeriod

/-- What is counted. -/
inductive Counter where
  | ticks | presses | heartbeats
deriving DecidableEq

/-- The counters since the board was powered on. -/
structure Counters where
  ticks : UInt32
  presses : UInt32
  heartbeats : UInt32
deriving DecidableEq

namespace Counters

def zero : Counters := ⟨0, 0, 0⟩

/-- Where a counter stands. -/
def count (c : Counters) : Counter → UInt32
  | .ticks => c.ticks
  | .presses => c.presses
  | .heartbeats => c.heartbeats

def record (c : Counters) : Counter → Counters
  | .ticks => { c with ticks := c.ticks + 1 }
  | .presses => { c with presses := c.presses + 1 }
  | .heartbeats => { c with heartbeats := c.heartbeats + 1 }

end Counters
end ConferenceBadge.Board
