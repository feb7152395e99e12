import ConferenceBadge.Board.Published
import ConferenceBadge.Service.Basic

/-!
The one service built into the board, a heartbeat, and the store and radio that stand around it: a
store with this one app, and no radio at all.
-/
namespace ConferenceBadge.Board

/-- A service that counts once a second up to a limit. -/
structure Heartbeat where
  beats : UInt32
  limit : UInt32
deriving DecidableEq

namespace Heartbeat

/-- The heartbeat of the first thirty seconds. -/
def fresh : Heartbeat := ⟨0, 30⟩

def beat (h : Heartbeat) (counters : Counters) :
    Reply Counters (Except Service.Error Outcome × Heartbeat) :=
  let beats := h.beats + 1
  let counters := counters.record .heartbeats
  let total := counters.count .heartbeats
  ⟨(.ok (if h.limit ≤ beats then .remove else .ofMillis 1000), { h with beats }), counters,
    [⟨.trace, .board, s!"heartbeat {beats} ({total} since boot)"⟩]⟩

/-- A heartbeat draws nothing. -/
def draw (_ : Heartbeat) : Except Service.Error Service.DrawResult := .error .notProvided

end Heartbeat

namespace Store

def app : String := "heartbeat"

def manifestText : String :=
  "\x7b\"apiVersion\": 2, \"wifi\": \x7b\"setup\": false\x7d, \"rtc\": false, \"loop\": true, \"draw\": false\x7d"

def count : Nat := 1

def name? (index : Nat) : Option Service.AppName := if index < count then Service.AppName.ofString? app else none

/-- The manifest of an app, of so many bytes at most. -/
def manifest (name : String) (limit : Nat) : Except Service.StorageError String :=
  if name = app then
    if manifestText.utf8ByteSize ≤ limit then .ok manifestText else .error .tooLarge
  else .error .notFound

def service (name : String) : Except Service.StorageError Heartbeat :=
  if name = app then .ok .fresh else .error .notFound

end Store

/-- Answers the board's services and those who run them. -/
def world : Handler (Service.World Heartbeat) Counters
  | .count, c => ⟨.ok Store.count, c, []⟩
  | .name index, c => ⟨Store.name? index, c, []⟩
  | .manifest app limit, c => ⟨Store.manifest app.text limit, c, []⟩
  | .service app, c => ⟨Store.service app.text, c, []⟩
  | .connected, c | .connect, c | .setClock, c => ⟨false, c, []⟩
  | .time, c | .height, c => ⟨(0 : Nat), c, []⟩
  | .setUp service, c => ⟨(.ok (), service), c, []⟩
  | .loop service, c => service.beat c
  | .draw service _, c => ⟨(service.draw, service), c, []⟩
  | .beginDrawing, c | .endDrawing, c => ⟨(), c, []⟩

end ConferenceBadge.Board
