import WhereClause.Text.CodePoints

/-!
# Blanks

Blank are the spaces and line separators of Unicode, the tabs and line ends among the controls, and
the four information separators U+001C to U+001F. Text is trimmed of blanks at both ends.
-/

namespace WhereClause.Text

/-- The blank code points. -/
def blanks : CodePoints :=
  ⟨[0x09, 0x0E, 0x1C, 0x21, 0x85, 0x86, 0xA0, 0xA1, 0x1680, 0x1681, 0x2000, 0x200B, 0x2028,
    0x202A, 0x202F, 0x2030, 0x205F, 0x2060, 0x3000, 0x3001]⟩

def isBlank (c : Char) : Bool := blanks.contains c

/-- Text without the blanks at either end. -/
def trim (cs : List Char) : List Char :=
  ((cs.dropWhile isBlank).reverse.dropWhile isBlank).reverse

end WhereClause.Text
