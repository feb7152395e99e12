/-!
Texts in columns: a text shorter than its column is filled up with one character, and a longer one
keeps its length.
-/
namespace ConferenceBadge.Text

/-- At the right edge of a column of so many characters. -/
def atRight (width : Nat) (s : String) (fill : Char) : String :=
  "".pushn fill (width - s.length) ++ s

theorem length_atRight (width : Nat) (s : String) (fill : Char) :
    (atRight width s fill).length = max width s.length := by
  simp [atRight]
  omega

/-- At the left edge of a column of so many characters. -/
def atLeft (width : Nat) (s : String) : String := s.pushn ' ' (width - s.length)

theorem length_atLeft (width : Nat) (s : String) : (atLeft width s).length = max width s.length := by
  simp [atLeft]
  omega

end ConferenceBadge.Text
