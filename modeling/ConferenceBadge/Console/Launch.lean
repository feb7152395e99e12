import ConferenceBadge.Console.Command
import ConferenceBadge.Console.Session

/-!
The arguments of the emulator's command line.
-/
namespace ConferenceBadge.Console

/-- Why arguments are refused. -/
inductive UsageError where
  | unknownArgument (argument : String)
  | valueMissing (flag : String)
  | notMillis (text : String)
  | responseTimeTooLong
deriving DecidableEq

/-- The longest response time that can be set, in milliseconds. -/
def longestResponseTime : Nat := 65535

def UsageError.message : UsageError → String
  | unknownArgument argument => "Unknown argument `" ++ argument ++ "`"
  | valueMissing flag => "Expected value after " ++ flag
  | notMillis text => "`" ++ text ++ "` is not a number of milliseconds"
  | responseTimeTooLong => s!"--urt must be at most {longestResponseTime}ms"

def usageLine : String :=
  "Usage: badge-emulator [--root <dir>] [--period <ms>] [--urt <ms>] [--transcript <path>] [--no-wifi] [--verbose]"

/-- What arguments ask for. -/
structure Launch where
  options : Options
  /-- the response time among the persistent settings -/
  responseTime : Option Nat
  level : Log.Level

namespace Launch

def standard : Launch := ⟨.standard, none, .info⟩

/-- The digits of a number, behind a plus sign or not. -/
def digits (text : String) : List Char :=
  match text.toList with
  | '+' :: rest => rest
  | cs => cs

/-- A number of milliseconds, as large as a console command takes. -/
def millis (text : String) : Except UsageError Nat :=
  let ds := digits text
  let n := Command.ofDigits ds
  if !ds.isEmpty && ds.all Char.isDigit && n ≤ Command.longestAdvance then .ok n else .error (.notMillis text)

def setResponseTime (l : Launch) (text : String) : Except UsageError Launch := do
  let n ← millis text
  if n ≤ longestResponseTime then .ok { l with responseTime := some n } else .error .responseTimeTooLong

def setPeriod (l : Launch) (text : String) : Except UsageError Launch := do
  return { l with options := { l.options with period := .ofMillis (← millis text) } }

/-- Whether an argument takes the next one as its value, and what it does with it. -/
def valued? (argument : String) : Option (Launch → String → Except UsageError Launch) :=
  if argument = "--root" then some fun l v => .ok { l with options := { l.options with root := .ofText v } }
  else if argument = "--transcript" then
    some fun l v => .ok { l with options := { l.options with transcript := some (.ofText v) } }
  else if argument = "--period" then some setPeriod
  else if argument = "--urt" then some setResponseTime
  else none

/-- What an argument without a value does. -/
def switch (l : Launch) (argument : String) : Except UsageError Launch :=
  if argument = "--no-wifi" then .ok { l with options := { l.options with wifi := false } }
  else if argument = "--verbose" then .ok { l with level := .debug }
  else .error (.unknownArgument argument)

/-- Takes arguments one after the other. -/
def collect : List String → Launch → Except UsageError Launch
  | [], l => .ok l
  | argument :: rest, l =>
    match valued? argument with
    | none => do collect rest (← l.switch argument)
    | some set =>
      match rest with
      | [] => .error (.valueMissing argument)
      | value :: rest => do collect rest (← set l value)

/-- The persistent settings: only the response time may be set. -/
def settings (responseTime : Option Nat) (space key : String) : Option Nat :=
  if space = Power.settingsSpace ∧ key = Power.responseTimeKey then responseTime else none

/-- What the arguments ask for, the power settings included. -/
def ofArguments (arguments : List String) : Except UsageError Launch := do
  let l ← collect arguments standard
  return { l with options := { l.options with power := (Power.Config.ofSettings (settings l.responseTime)).1 } }

end Launch
end ConferenceBadge.Console
