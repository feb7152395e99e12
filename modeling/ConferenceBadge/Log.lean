import ConferenceBadge.Text.Column

/-!
Log lines: what the parts of the badge note while they work. A line has a level and the part that
wrote it; a filter tells which lines are kept.
-/
namespace ConferenceBadge.Log

/-- How much a line matters, the gravest level first. -/
inductive Level where
  | error | warn | info | debug | trace
deriving DecidableEq

/-- The rank of a level: the gravest has the lowest. -/
def Level.rank : Level → Nat
  | error => 1
  | warn => 2
  | info => 3
  | debug => 4
  | trace => 5

def Level.name : Level → String
  | error => "ERROR"
  | warn => "WARN"
  | info => "INFO"
  | debug => "DEBUG"
  | trace => "TRACE"

def Level.label (l : Level) : String := Text.atLeft 5 l.name

/-- The part of the badge that wrote a line. -/
inductive Source where
  | scheduler | power | services | manifest | emulator | demo | board
deriving DecidableEq

def Source.path : Source → String
  | scheduler => "badge_core::scheduler"
  | power => "badge_core::power"
  | services => "badge_core::services"
  | manifest => "badge_core::services::manifest"
  | emulator => "badge_emulator::badge"
  | demo => "badge_emulator::demo"
  | board => "badge_firmware::badge"

/-- One log line. -/
structure Line where
  level : Level
  source : Source
  text : String
deriving DecidableEq

/-- What follows the level: the part and its text. -/
def Line.body (l : Line) : String := l.source.path ++ ": " ++ l.text

def Line.render (l : Line) : String := l.level.label ++ " " ++ l.body

/-- The least grave level that is kept; `none` keeps no line. -/
abbrev Filter := Option Level

def Filter.keeps (f : Filter) (l : Line) : Bool :=
  match f with
  | none => false
  | some least => l.level.rank ≤ least.rank

/-- The lines that pass the filter, as they are kept. -/
def Filter.render (f : Filter) (lines : List Line) : List String :=
  (lines.filter f.keeps).map Line.render

/-- A terminal's command to change colour or weight. -/
def escape (code : String) : String := "\x1b[" ++ code ++ "m"

/-- The word for a level in its colour: red and bold, yellow, green, blue and dark grey. -/
def Level.coloured (l : Level) : String :=
  match l with
  | error => escape "38;5;9" ++ escape "1" ++ l.label ++ escape "0"
  | warn => escape "38;5;11" ++ l.label ++ escape "39"
  | info => escape "38;5;10" ++ l.label ++ escape "39"
  | debug => escape "38;5;12" ++ l.label ++ escape "39"
  | trace => escape "38;5;8" ++ l.label ++ escape "39"

def Line.coloured (l : Line) : String := l.level.coloured ++ " " ++ l.body

end ConferenceBadge.Log
