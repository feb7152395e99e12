import ConferenceBadge.Manifest.Basic
import ConferenceBadge.Program

/-!
Background services and what they live among: the store that ships them, the network, their own
entry points and the display. All of it is one interface (`World`), so that the code that starts and
runs services is the same for every store, network, service and display.
-/
namespace ConferenceBadge.Service

/-- The bytes that an app's name may have. -/
def longestName : Nat := 32

def longestManifest : Nat := 512

/-- The name of an installed app. -/
structure AppName where
  text : String
  fits : text.utf8ByteSize ≤ longestName
deriving DecidableEq

/-- The name of an app, unless it is too long. -/
def AppName.ofString? (text : String) : Option AppName :=
  if fits : text.utf8ByteSize ≤ longestName then some ⟨text, fits⟩ else none

/-- A failure of a service. -/
inductive Error where
  /-- the service lacks the entry point that its manifest promised -/
  | notProvided
  | failed (reason : String)
deriving DecidableEq

def Error.message : Error → String
  | notProvided => "entry point not provided"
  | failed reason => reason

/-- A failure of the store. -/
inductive StorageError where
  /-- the list of apps itself cannot be read -/
  | unavailable
  | notFound
  | tooLarge
  /-- the file is there but is no text -/
  | invalid
deriving DecidableEq

def StorageError.message : StorageError → String
  | unavailable => "app storage unavailable"
  | notFound => "not found"
  | tooLarge => "too large"
  | invalid => "unreadable"

/-- What a service reports after drawing. -/
structure DrawResult where
  /-- when to draw again; none or zero for no more -/
  nextIn : Option Duration
  /-- the pixel rows it took -/
  spaceUsed : Nat
deriving DecidableEq

namespace DrawResult

/-- Draw again after a while. -/
def repeating (interval : Duration) (spaceUsed : Nat) : DrawResult := ⟨some interval, spaceUsed⟩

/-- The interval to the next drawing, if there is to be one. -/
def interval? (r : DrawResult) : Option Duration := r.nextIn.filter fun d => d ≠ .zero

end DrawResult

/-- Why an app's service was not started. -/
inductive StartError where
  | nameUnreadable
  | noManifest (cause : StorageError)
  | manifest (cause : Manifest.Rejection)
  | noService (cause : StorageError)
  | wifiUnavailable
  /-- wifi failed for an app before this one -/
  | wifiFailedEarlier
  | clockUnavailable
  | setupFailed (cause : Error)
  | noSlot
deriving DecidableEq

/-- The wording of a reason to skip an app. -/
def StartError.message : StartError → String
  | nameUnreadable => "app name unreadable"
  | noManifest cause => "manifest " ++ cause.message
  | manifest cause => cause.message
  | noService cause => "service script " ++ cause.message
  | wifiUnavailable => "could not connect to wifi"
  | wifiFailedEarlier => "requires wifi and wifi already failed"
  | clockUnavailable => "requires a set clock and wifi failed"
  | setupFailed cause => "setup failed: " ++ cause.message
  | noSlot => "no free service slot"

/-- The keys of the tasks that services need. -/
inductive TaskKey where
  /-- the loop of the service in a slot -/
  | loop (slot : Nat)
  /-- the drawing of all services -/
  | draw
deriving DecidableEq

instance : ToString TaskKey where
  toString
    | .loop slot => s!"Loop({slot})"
    | .draw => "Draw"

/-- The rules that services are started and run by. -/
structure Config where
  apiVersion : Nat
  /-- drawing never happens sooner than this after the last time -/
  shortestDrawInterval : Duration
  /-- a clock that shows less, in Unix seconds, counts as not set -/
  clockValidFrom : Nat
  /-- a loop that got no wifi is tried again after this -/
  wifiRetryDelay : Duration
deriving DecidableEq

/-- One second between drawings, a clock of December 2016 or later, ten seconds until wifi is tried
again. -/
def Config.standard : Config where
  apiVersion := Manifest.currentApi
  shortestDrawInterval := .ofMillis 1000
  clockValidFrom := 1482192000
  wifiRetryDelay := .ofSeconds 10

/-- The delay before the first run of a loop or drawing. -/
def startDelay : Duration := .ofMillis 1

/-- What services and those who run them call on; `σ` is the kind of services. -/
inductive Call (σ : Type) where
  /-- how many apps are installed? -/
  | count
  /-- the name of one of them -/
  | name (index : Nat)
  /-- an app's manifest, of so many bytes at most -/
  | manifest (app : AppName) (limit : Nat)
  /-- an app's service -/
  | service (app : AppName)
  /-- is wifi connected? -/
  | connected
  /-- connect; is wifi connected now? -/
  | connect
  /-- the clock, in Unix seconds -/
  | time
  /-- set the clock; has it been set? -/
  | setClock
  /-- a service's own setup -/
  | setUp (service : σ)
  /-- one run of a service's loop -/
  | loop (service : σ)
  /-- draw onto the rows that are left -/
  | draw (service : σ) (budget : Nat)
  /-- drawing begins -/
  | beginDrawing
  /-- drawing has ended -/
  | endDrawing
  /-- the display's height in pixels -/
  | height
deriving DecidableEq

/-- The kind of answer each call gets; a service that was called comes back with it. -/
@[reducible] def Call.Answer {σ : Type} : Call σ → Type
  | count => Except StorageError Nat
  | name _ => Option AppName
  | manifest .. => Except StorageError String
  | service _ => Except StorageError σ
  | connected | connect | setClock => Bool
  | time | height => Nat
  | setUp _ => Except Error Unit × σ
  | loop _ => Except Error Outcome × σ
  | draw .. => Except Error DrawResult × σ
  | beginDrawing | endDrawing => Unit

/-- Everything around the services. -/
abbrev World (σ : Type) : Interface := ⟨Call σ, Call.Answer⟩

/-- A program among services of kind `σ`. -/
abbrev Work (κ σ α : Type) : Type := Program κ (World σ) α

namespace Work

variable {κ σ : Type}

def on (c : Call σ) : Work κ σ (Call.Answer c) := Program.call c .done

def log (level : Log.Level) (text : String) : Work κ σ Unit := Program.log level .services text

/-- Whether wifi is connected, after an attempt to connect if it is not. -/
def bringUpWifi : Work κ σ Bool := do
  if ← on .connected then return true
  on .connect

end Work
end ConferenceBadge.Service
