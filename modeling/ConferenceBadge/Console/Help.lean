import ConferenceBadge.Text.Blank

/-!
What the console says about its commands.
-/
namespace ConferenceBadge.Console.Help

/-- The topics in order, each with its line. -/
def topics : List (String × String) :=
  [("advance", "advance <ms>        - let time pass, ticking the scheduler"),
   ("tick", "tick [n]            - deliver n timer interrupts (default 1)"),
   ("press", "press               - press a button (wakes a sleeping badge)"),
   ("tasks", "tasks               - list registered tasks"),
   ("services", "services            - list started background services"),
   ("events", "events              - show recent scheduler events"),
   ("idle", "idle                - show time until the next visible task"),
   ("wifi", "wifi on|off         - put an access point in or out of range"),
   ("draw", "draw                - redraw the home screen with service areas"),
   ("screen", "screen              - show the display contents"),
   ("help", "help [topic]        - show help for a command")]

/-- A text with its ASCII capitals made small. -/
def lowered (s : String) : String := String.ofList (s.toList.map Char.toLower)

/-- The line of a topic, whose letters may be small or capital. -/
def find? (topic : String) : Option String :=
  (topics.find? fun t => t.1 = lowered topic).map (·.2)

def names : String := ", ".intercalate (topics.map (·.1))

def overview : List String :=
  "Available commands:" :: topics.map (fun t => "  " ++ t.2) ++
    ["Type `help <topic>` for a specific command."]

def about (topic : String) : List String :=
  match find? topic with
  | some detail => [detail]
  | none => ["No help available for `" ++ topic ++ "`.", "Available topics: " ++ names]

/-- The answer to a request for help; a blank topic is none. -/
def answer : Option String → List String
  | none => overview
  | some topic =>
    let topic := Text.trim topic
    if topic = "" then overview else about topic

end ConferenceBadge.Console.Help
