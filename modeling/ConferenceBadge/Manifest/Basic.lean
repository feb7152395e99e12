import ConferenceBadge.Log
import ConferenceBadge.Manifest.Reader

/-!
Service manifests: what a service needs and what it offers. Every member but `wifi.loop` has to be
there, and a null counts as absent.
-/
namespace ConferenceBadge

/-- What a service declares about itself. -/
structure Manifest where
  apiVersion : Nat
  wifiAtSetup : Bool
  wifiAtLoop : Bool
  needsClock : Bool
  wantsLoop : Bool
  wantsDraw : Bool
deriving DecidableEq

namespace Manifest

/-- Why a manifest is rejected. -/
inductive Rejection where
  /-- the text cannot be read -/
  | malformed (cause : ReadError)
  /-- a member is absent -/
  | missing (name : String)
  /-- the manifest is for another API version -/
  | incompatible (found expected : Nat)
deriving DecidableEq

namespace Rejection

def message : Rejection → String
  | malformed _ => "malformed manifest"
  | missing name => "manifest lacks `" ++ name ++ "`"
  | incompatible found expected => s!"api version {found} is not compatible with {expected}"

/-- The lines noted about a rejection: the cause of a text that cannot be read. -/
def lines : Rejection → List Log.Line
  | malformed cause => [⟨.debug, .manifest, "manifest rejected: " ++ cause.message⟩]
  | _ => []

end Rejection

def member {α : Type} (name : String) : Option α → Except Rejection α
  | some a => .ok a
  | none => .error (.missing name)

/-- The manifest with the values that were read. Wifi is needed in the loop if it is at setup, unless
the manifest says otherwise. -/
def ofSeen (s : Seen) : Except Rejection Manifest := do
  member "wifi" (if s.wifi then some () else none)
  let wifiAtSetup ← member "wifi.setup" (s.flag? .wifiSetup)
  let apiVersion ← member "apiVersion" s.apiVersion
  let needsClock ← member "rtc" (s.flag? .rtc)
  let wantsLoop ← member "loop" (s.flag? .loop)
  let wantsDraw ← member "draw" (s.flag? .draw)
  let wifiAtLoop := (s.flag? .wifiLoop).getD wifiAtSetup
  return { apiVersion, wifiAtSetup, wifiAtLoop, needsClock, wantsLoop, wantsDraw }

def parse (text : String) : Except Rejection Manifest :=
  match Reader.read text.toList with
  | .error cause => .error (.malformed cause)
  | .ok seen => ofSeen seen

/-- Refuses a manifest for another API version than the expected one. -/
def checkVersion (m : Manifest) (expected : Nat) : Except Rejection Unit :=
  if m.apiVersion = expected then .ok () else .error (.incompatible m.apiVersion expected)

/-- Whether a service needs wifi at any time. -/
def needsWifi (m : Manifest) : Bool := m.wifiAtSetup || m.wifiAtLoop

/-- The API version that services are written for. -/
def currentApi : Nat := 2

end Manifest
end ConferenceBadge
