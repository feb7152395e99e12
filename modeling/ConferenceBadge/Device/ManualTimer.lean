import ConferenceBadge.Scheduler.Basic

/-!
A timer that only remembers what it was told; someone else delivers the ticks.
-/
namespace ConferenceBadge

/-- The period at which ticks are wanted, if they are. -/
structure ManualTimer where
  running : Option Duration
deriving DecidableEq

namespace ManualTimer

def stopped : ManualTimer := ⟨none⟩

instance : TickTimer ManualTimer where
  start _ period := ⟨some period⟩
  stop _ := stopped

end ManualTimer
end ConferenceBadge
