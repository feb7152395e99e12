/-!
Blank characters: the characters with Unicode's `White_Space` property, and texts without the
blanks around them.
-/
namespace ConferenceBadge.Text

/-- The runs of code points with the `White_Space` property. -/
def blankRanges : List (Nat × Nat) :=
  [(0x0009, 0x000D), (0x0020, 0x0020), (0x0085, 0x0085), (0x00A0, 0x00A0), (0x1680, 0x1680),
   (0x2000, 0x200A), (0x2028, 0x2029), (0x202F, 0x202F), (0x205F, 0x205F), (0x3000, 0x3000)]

def isBlank (c : Char) : Bool := blankRanges.any fun r => r.1 ≤ c.toNat && c.toNat ≤ r.2

theorem isBlank_of_isWhitespace {c : Char} (space : c.isWhitespace) : isBlank c := by
  simp [Char.isWhitespace] at space
  rcases space with ((rfl | rfl) | rfl) | rfl <;> decide

/-- The characters from the first to the last that is not blank. -/
def trimChars (cs : List Char) : List Char :=
  ((cs.dropWhile isBlank).reverse.dropWhile isBlank).reverse

/-- A text without the blanks before and after it. -/
def trim (s : String) : String := String.ofList (trimChars s.toList)

end ConferenceBadge.Text
