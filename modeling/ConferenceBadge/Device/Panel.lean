import ConferenceBadge.Duration

/-!
The display: text rows on a panel of 296 by 128 pixels. Drawing goes to a page at the back, which
shows once drawing is complete.
-/
namespace ConferenceBadge

/-- Text rows by the pixel row of their upper edge, from the top down. -/
structure TextPage where
  rows : List (Nat × String)
deriving DecidableEq

namespace TextPage

def blank : TextPage := ⟨[]⟩

def rowLength : Nat := 296 / 8

/-- The pixel height of a row. -/
def rowHeight : Nat := 16

/-- The rows with a text at a pixel row, in place of what was there. -/
def place (y : Nat) (text : String) : List (Nat × String) → List (Nat × String)
  | [] => [(y, text)]
  | row :: below =>
    if y < row.1 then (y, text) :: row :: below
    else if y = row.1 then (y, text) :: below
    else row :: place y text below

/-- The text placed last is the one at its row. -/
theorem lookup_place (y : Nat) (text : String) (rows : List (Nat × String)) :
    (place y text rows).lookup y = some text := by
  induction rows with
  | nil => simp [place]
  | cons row below ih =>
    obtain ⟨z, there⟩ := row
    simp only [place]
    split
    · simp
    · split
      · simp
      · next other =>
        have differs : (y == z) = false := by simpa using other
        simpa [List.lookup_cons, differs] using ih

/-- Writes a text at a pixel row; what runs past the right edge is cut off. -/
def write (s : TextPage) (y : Nat) (text : String) : TextPage :=
  ⟨place y (String.ofList (text.toList.take rowLength)) s.rows⟩

end TextPage

/-- The two screens that the badge draws by itself. -/
inductive Screen where
  | home | sleeping
deriving DecidableEq

/-- The panel with the screen it is set to. -/
structure Panel where
  screen : Screen
  /-- what is being drawn -/
  back : TextPage
  /-- what shows -/
  front : TextPage
deriving DecidableEq

namespace Panel

/-- A panel that shows nothing and is set to the home screen. -/
def blank : Panel := ⟨.home, .blank, .blank⟩

def height : Nat := 128

/-- The rows of a screen without any service. -/
def base : Screen → TextPage
  | .home => TextPage.blank.write 0 "Press start to open the launcher"
  | .sleeping =>
    (TextPage.blank.write 0 "Sleeping...").write TextPage.rowHeight "Press any key to wake up"

/-- Sets the screen for the next drawing. -/
def switchTo (p : Panel) (screen : Screen) : Panel := { p with screen }

/-- Begins drawing with the rows of the screen. -/
def beginDrawing (p : Panel) : Panel := { p with back := base p.screen }

def write (p : Panel) (y : Nat) (text : String) : Panel := { p with back := p.back.write y text }

def endDrawing (p : Panel) : Panel := { p with front := p.back }

/-- Draws the screen without any service. -/
def redraw (p : Panel) : Panel := p.beginDrawing.endDrawing

end Panel
end ConferenceBadge
