import ConferenceBadge.Device.Panel
import ConferenceBadge.Device.Radio
import ConferenceBadge.Service.Basic
import ConferenceBadge.Text.Column

/-!
The demo services: a clock that draws, a counter that stops, a forecast that needs wifi and a sensor
that fails. Which one an app gets depends on its name.
-/
namespace ConferenceBadge

/-- A demo service. What it counts are idealised counts, which have no width. -/
inductive DemoService where
  /-- shows the time -/
  | clock
  /-- counts up to a limit -/
  | counter (count limit : Nat)
  /-- fetches a forecast and shows it -/
  | weather (fetches : Nat)
  /-- fails on its third run -/
  | flaky (runs : Nat)
deriving DecidableEq

namespace DemoService

def forApp? (app : String) : Option DemoService :=
  if app = "clock" then some .clock
  else if app = "counter" then some (.counter 0 5)
  else if app = "weather" then some (.weather 0)
  else if app = "flaky" then some (.flaky 0)
  else none

def loop : DemoService → Reply DemoService (Except Service.Error Outcome)
  | .clock => ⟨.error .notProvided, .clock, []⟩
  | .counter count limit =>
    let count := count + 1
    ⟨.ok (if limit ≤ count then .remove else .ofMillis 2000), .counter count limit,
      [⟨.info, .demo, s!"counter at {count}"⟩]⟩
  | .weather fetches =>
    let fetches := fetches + 1
    ⟨.ok (.ofMillis 30000), .weather fetches, [⟨.debug, .demo, s!"forecast fetch #{fetches}"⟩]⟩
  | .flaky runs =>
    let runs := runs + 1
    ⟨if 3 ≤ runs then .error (.failed "sensor went away") else .ok (.ofMillis 1000), .flaky runs, []⟩

/-- Hours and minutes of a time in Unix seconds. -/
def clockText (seconds : Nat) : String :=
  let hours := Text.atRight 2 (toString (seconds / 3600 % 24)) '0'
  let minutes := Text.atRight 2 (toString (seconds / 60 % 60)) '0'
  hours ++ ":" ++ minutes ++ " UTC"

/-- Draws a row at the bottom of the rows that are left; it is `now` on the host. Without room for a
row the services that draw try again in a minute. -/
def draw (service : DemoService) (page : TextPage) (budget : Nat) (now : Int) :
    Except Service.Error Service.DrawResult × TextPage :=
  if budget < TextPage.rowHeight then (.ok (.repeating (.ofSeconds 60) 0), page)
  else
    let y := budget - TextPage.rowHeight
    match service with
    | .clock =>
      (.ok (.repeating (.ofSeconds 60) TextPage.rowHeight),
        page.write y (clockText (Radio.wallClock now)))
    | .weather fetches =>
      (.ok (.repeating (.ofSeconds 300) TextPage.rowHeight),
        page.write y (if fetches = 0 then "forecast pending" else "12C, light rain"))
    | .counter .. | .flaky _ => (.error .notProvided, page)

end DemoService
end ConferenceBadge
