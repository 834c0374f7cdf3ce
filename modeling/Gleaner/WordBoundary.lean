import Gleaner.Regex.Spelling

/-!
# Word boundaries

A numeral counts only where it is not part of a longer word. The characters of such words are
letters, digits, signs and the point; two assertions around a pattern keep it apart from them.

The assertions exist as patterns with the standard characters, and as text with the inside of a
bracketed set of the caller's choice, in which a `-` that stands for itself comes last.
-/

namespace Gleaner.WordBoundary

/-- The standard characters of words. -/
def chars : List CharRange :=
  [⟨'a', 'z'⟩, ⟨'A', 'Z'⟩, ⟨'0', '9'⟩, .only 'd', .only 'e', .only 'D', .only 'E', .only '+',
    .only '.', .only '-']

/-- No word character stands before. -/
def opening : Regex :=
  .look .before false (.oneOf chars)

/-- No word character follows. -/
def closing : Regex :=
  .look .after false (.oneOf chars)

/-- A pattern that is matched only as a whole word. -/
def around (regex : Regex) : Regex :=
  .concat [opening, regex, closing]

/-- The inside of the bracketed set of standard characters. -/
def charsText : List Char :=
  chars.flatMap CharRange.spell

def openingText (inside : List Char) : List Char :=
  Side.opening .before false ++ '[' :: inside ++ [']', ')']

def closingText (inside : List Char) : List Char :=
  Side.opening .after false ++ '[' :: inside ++ [']', ')']

/-- A pattern text between the two assertions. -/
def aroundText (pattern inside : List Char) : List Char :=
  openingText inside ++ pattern ++ closingText inside

/-- The two forms of the assertions agree on the standard characters. -/
theorem spell_around (regex : Regex) :
    (around regex).spell = aroundText regex.spell charsText := by
  simp only [around, Regex.concat, opening, closing, HAppend.hAppend, Append.append, Regex.spell]
  simp [aroundText, openingText, closingText, charsText, CharSet.spell]

end Gleaner.WordBoundary
