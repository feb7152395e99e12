import ConferenceBadge.Registry

/-!
The simulated radio and clock. The radio connects only when asked to, and only while an access point
is in range. The clock shows nothing until it has been set over the network; from then on it shows
the time of the host.
-/
namespace ConferenceBadge

/-- The radio and the clock. -/
structure Radio where
  /-- an access point is in range -/
  inRange : Bool
  connected : Bool
  clockSet : Bool
deriving DecidableEq

namespace Radio

/-- Not connected, with the clock not set. -/
def off (inRange : Bool) : Radio := ⟨inRange, false, false⟩

/-- Puts an access point in or out of range; out of range a connection is lost. -/
def setInRange (r : Radio) (inRange : Bool) : Radio :=
  { r with inRange, connected := r.connected && inRange }

/-- After deep sleep the connection is lost; the clock runs on. -/
def afterSleep (r : Radio) : Radio := { r with connected := false }

/-- Connects, if an access point is in range. -/
def connect (r : Radio) : Reply Radio Bool :=
  ⟨r.inRange, { r with connected := r.inRange },
    if r.inRange then [] else [⟨.warn, .emulator, "no access point in range"⟩]⟩

/-- Unix seconds for the time of the host: zero before 1970. -/
def wallClock (now : Int) : Nat := now.toNat

/-- What the clock shows when it is `now` on the host. -/
def shownTime (r : Radio) (now : Int) : Nat := if r.clockSet then wallClock now else 0

/-- Sets the clock over the network; tells whether it has been set by now or before. -/
def setClock (r : Radio) : Reply Radio Bool :=
  let clockSet := r.clockSet || r.connected
  ⟨clockSet, { r with clockSet }, []⟩

end Radio
end ConferenceBadge
