/-! White space and what is cut at it.

Blank characters are those of the Unicode property `White_Space`. The zero-width space and the
byte-order mark are not among them, so a text made of these alone is not blank. -/

namespace ReviewQueue.Text

/-- The Unicode property `White_Space`. -/
def isBlank (c : Char) : Bool :=
  let n := c.toNat
  (9 ≤ n && n ≤ 13) || n == 0x20 || n == 0x85 || n == 0xA0 || n == 0x1680 ||
    (0x2000 ≤ n && n ≤ 0x200A) || n == 0x2028 || n == 0x2029 || n == 0x202F ||
    n == 0x205F || n == 0x3000

/-- Drops the blanks at the end. -/
def trimEnd (s : List Char) : List Char :=
  (s.reverse.dropWhile isBlank).reverse

/-- Drops the blanks at both ends. -/
def trim (s : List Char) : List Char :=
  trimEnd (s.dropWhile isBlank)

/-- The text without the blanks at its ends. -/
def trimmed (s : String) : String :=
  .ofList (trim s.toList)

/-- A text is blank when only white space is in it; the empty text is blank. -/
def isBlankText (s : String) : Bool :=
  s.toList.all isBlank

/-- Cuts a text into its maximal runs of characters that satisfy `p`; `run` is the run being read,
last character first. -/
def runsFrom (p : Char → Bool) (run : List Char) : List Char → List (List Char)
  | [] => if run.isEmpty then [] else [run.reverse]
  | c :: rest =>
    if p c then runsFrom p (c :: run) rest
    else if run.isEmpty then runsFrom p [] rest
    else run.reverse :: runsFrom p [] rest

/-- The words of a text: its maximal runs without white space. -/
def words (s : String) : List String :=
  (runsFrom (fun c => !isBlank c) [] s.toList).map .ofList

end ReviewQueue.Text
