import ConferenceBadge.Duration

/-!
Console commands and their grammar. The forms are tried in order and the first that fits decides; it
has to take the whole line. An optional argument that does not fit is left out.
-/
namespace ConferenceBadge.Console

/-- A console command. -/
inductive Command where
  /-- let time pass -/
  | advance (d : Duration)
  /-- deliver so many ticks -/
  | tick (count : Nat)
  /-- press a button -/
  | press
  | tasks
  | services
  | events
  | idle
  /-- put an access point in or out of range -/
  | wifi (inRange : Bool)
  /-- draw the home screen with every service row -/
  | draw
  | screen
  | help (topic : Option String)
deriving DecidableEq

/-- The line is no command; the first form that fits ended at this byte. -/
structure ParseError where
  offset : Nat
deriving DecidableEq

def ParseError.message (e : ParseError) : String := s!"unrecognized input at column {e.offset + 1}"

namespace Command

/-- A form: what it finds at the beginning of a text, and the text after that. -/
abbrev Form (α : Type) : Type := List Char → Option (α × List Char)

/-- Whether a character separates a command from its argument. -/
def isGap (c : Char) : Bool := c = ' ' || c = '\t' || c = '\r' || c = '\n'

def afterLetters : List Char → List Char → Option (List Char)
  | [], text => some text
  | _ :: _, [] => none
  | letter :: letters, c :: text => if c = letter then afterLetters letters text else none

def afterWord (word : String) (text : List Char) : Option (List Char) := afterLetters word.toList text

theorem afterLetters_eq_some_iff {letters text rest : List Char} :
    afterLetters letters text = some rest ↔ text = letters ++ rest := by
  induction letters generalizing text with
  | nil => simp [afterLetters]
  | cons letter letters ih =>
    cases text with
    | nil => simp [afterLetters]
    | cons c text =>
      rw [afterLetters]
      split
      · next same => simp [ih, same]
      · next other => simp [other]

theorem afterWord_eq_some_iff {word : String} {text rest : List Char} :
    afterWord word text = some rest ↔ text = word.toList ++ rest := afterLetters_eq_some_iff

/-- The text after one or more separating characters. -/
def afterGap : List Char → Option (List Char)
  | [] => none
  | c :: rest => if isGap c then some (rest.dropWhile isGap) else none

/-- The number that decimal digits stand for. -/
def ofDigits (digits : List Char) : Nat := digits.foldl (fun n c => n * 10 + (c.toNat - '0'.toNat)) 0

/-- A decimal number up to a limit: zero by itself, or digits of which the first is not zero. -/
def number (limit : Nat) : Form Nat
  | [] => none
  | c :: rest =>
    if c = '0' then some (0, rest)
    else if c.isDigit then
      let n := ofDigits (c :: rest.takeWhile Char.isDigit)
      if n ≤ limit then some (n, rest.dropWhile Char.isDigit) else none
    else none

/-- The longest time that can be asked for, in milliseconds. -/
def longestAdvance : Nat := 18446744073709551615

/-- The most ticks that can be asked for. -/
def mostTicks : Nat := 4294967295

def plain (word : String) (command : Command) : Form Command := fun text =>
  (afterWord word text).map fun rest => (command, rest)

def advanceForm : Form Command := fun text => do
  let (n, rest) ← number longestAdvance (← afterGap (← afterWord "advance" text))
  return (.advance (.ofMillis n), rest)

/-- How many ticks to deliver; one unless it is said. -/
def tickForm : Form Command := fun text => do
  let rest ← afterWord "tick" text
  match afterGap rest >>= number mostTicks with
  | some (n, rest) => return (.tick n, rest)
  | none => return (.tick 1, rest)

/-- Whether the access point is in range. -/
def wifiForm : Form Command := fun text => do
  let rest ← afterGap (← afterWord "wifi" text)
  match afterWord "on" rest with
  | some rest => return (.wifi true, rest)
  | none => return (.wifi false, ← afterWord "off" rest)

/-- What to explain: the rest of the line. -/
def helpForm : Form Command := fun text => do
  let rest ← afterWord "help" text
  match afterGap rest with
  | some topic => return (.help (some (String.ofList topic)), [])
  | none => return (.help none, rest)

/-- All forms in the order in which they are tried. -/
def forms : List (Form Command) :=
  [advanceForm, tickForm, plain "press" .press, plain "tasks" .tasks, plain "services" .services,
   plain "events" .events, plain "idle" .idle, wifiForm, plain "draw" .draw, plain "screen" .screen,
   helpForm]

def byteLength (text : List Char) : Nat := text.foldl (fun n c => n + c.utf8Size) 0

def parse (line : String) : Except ParseError Command :=
  match forms.findSome? (· line.toList) with
  | none => .error ⟨0⟩
  | some (command, []) => .ok command
  | some (_, rest) => .error ⟨byteLength line.toList - byteLength rest⟩

end Command
end ConferenceBadge.Console
