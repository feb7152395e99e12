import ConferenceBadge.Task

/-!
The event log: what happened to the registered tasks, in order and numbered. The log keeps the last
few events; each new one beyond that number drops the oldest.
-/
namespace ConferenceBadge

/-- What happened to a task. -/
inductive Event (κ : Type) where
  /-- it was registered -/
  | added (handle : Handle) (key : κ)
  /-- it got a new target on request -/
  | retargeted (handle : Handle) (target : Duration)
  /-- it ran and asked to be removed -/
  | completed (handle : Handle) (key : κ)
  /-- it ran and failed -/
  | faulted (handle : Handle) (key : κ) (fault : Fault)
  /-- it was removed on request -/
  | deleted (handle : Handle)
deriving DecidableEq

instance {κ : Type} [ToString κ] : ToString (Event κ) where
  toString
    | .added h key => "added " ++ toString h ++ " " ++ toString key
    | .retargeted h target => "retargeted " ++ toString h ++ " " ++ target.text
    | .completed h key => "completed " ++ toString h ++ " " ++ toString key
    | .faulted h key fault => "faulted " ++ toString h ++ " " ++ toString key ++ ": " ++ fault.reason
    | .deleted h => "deleted " ++ toString h

/-- An event with its number and the uptime at which it happened. -/
structure LoggedEvent (κ : Type) where
  seq : UInt32
  uptime : Duration
  event : Event κ
deriving DecidableEq

/-- The last events, oldest first. -/
structure EventLog (κ : Type) where
  capacity : Nat
  kept : List (LoggedEvent κ)
  /-- The number of the next event; numbers start over after the last 32-bit one. -/
  nextSeq : UInt32

namespace EventLog

variable {κ : Type}

/-- A log that keeps so many events, none yet. -/
def empty (capacity : Nat) : EventLog κ := { capacity, kept := [], nextSeq := 0 }

/-- Appends an event and keeps the newest as far as there is room. -/
def record (log : EventLog κ) (uptime : Duration) (event : Event κ) : EventLog κ :=
  let grown := log.kept ++ [{ seq := log.nextSeq, uptime, event }]
  { log with kept := grown.drop (grown.length - log.capacity), nextSeq := log.nextSeq + 1 }

def newest? (log : EventLog κ) : Option (LoggedEvent κ) := log.kept.getLast?

def size (log : EventLog κ) : Nat := log.kept.length

def isEmpty (log : EventLog κ) : Bool := log.kept.isEmpty

/-- How many events were recorded, those dropped included. -/
def total (log : EventLog κ) : UInt32 := log.nextSeq

/-- Never more is kept than there is room for. -/
theorem size_record_le (log : EventLog κ) (uptime : Duration) (event : Event κ) :
    (log.record uptime event).size ≤ log.capacity := by
  simp only [record, size, List.length_drop]
  omega

/-- Nothing is dropped while there is room. -/
theorem kept_record {log : EventLog κ} (room : log.size < log.capacity) (uptime : Duration)
    (event : Event κ) :
    (log.record uptime event).kept = log.kept ++ [⟨log.nextSeq, uptime, event⟩] := by
  have none : (log.kept ++ [LoggedEvent.mk log.nextSeq uptime event]).length - log.capacity = 0 := by
    simp only [size] at room
    simp only [List.length_append, List.length_cons, List.length_nil]
    omega
  simp only [record, none, List.drop_zero]

/-- The event recorded last is the newest. -/
theorem newest?_record {log : EventLog κ} (room : 0 < log.capacity) (uptime : Duration)
    (event : Event κ) : (log.record uptime event).newest? = some ⟨log.nextSeq, uptime, event⟩ := by
  simp only [record, newest?, List.getLast?_drop]
  simp
  omega

end EventLog
end ConferenceBadge
