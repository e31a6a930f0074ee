/-! Comparison of a text with an ASCII name, ignoring case by Unicode simple folding.

Only two characters outside ASCII fold to an ASCII letter: the long s and the Kelvin sign. A text
therefore matches a name in lower case exactly when `foldChar` turns one into the other. -/

namespace ReviewQueue.Text

/-- The ASCII letter in lower case that a character folds to; any other character is left alone. -/
def foldChar (c : Char) : Char :=
  if 'A' ≤ c ∧ c ≤ 'Z' then Char.ofNat (c.toNat + 32)
  else if c.toNat = 0x17F then 's'
  else if c.toNat = 0x212A then 'k'
  else c

/-- Every character folded. -/
def fold (s : List Char) : List Char :=
  s.map foldChar

/-- Whether a text spells an ASCII name, ignoring case. -/
def spells (name text : String) : Bool :=
  fold name.toList == fold text.toList

end ReviewQueue.Text
