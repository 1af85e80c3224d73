/-!
# White space, words and lines

White space is the Unicode property `White_Space`.  Trimming removes it from
the two ends of a text, the words of a text are its maximal runs without white
space, and its lines end at a line feed, which may have a carriage return in
front of it.
-/

namespace BookRules.Text

/-- The characters with the Unicode property `White_Space`. -/
def isBlank (c : Char) : Bool :=
  let n := c.toNat
  (9 ≤ n && n ≤ 13) || n == 0x20 || n == 0x85 || n == 0xA0 || n == 0x1680 ||
    (0x2000 ≤ n && n ≤ 0x200A) || n == 0x2028 || n == 0x2029 || n == 0x202F ||
    n == 0x205F || n == 0x3000

/-- Drop white space in front. -/
def trimStart (cs : List Char) : List Char :=
  cs.dropWhile isBlank

/-- Drop white space at the end. -/
def trimEnd (cs : List Char) : List Char :=
  (cs.reverse.dropWhile isBlank).reverse

/-- Drop white space at both ends. -/
def trim (cs : List Char) : List Char :=
  trimEnd (trimStart cs)

/-- A text without the white space at its ends. -/
def trimmed (s : String) : String :=
  String.ofList (trim s.toList)

/-- A text is blank when it holds nothing but white space. -/
def isBlankText (s : String) : Bool :=
  s.toList.all isBlank

/-- The maximal runs without white space, in order. -/
def words (cs : List Char) : List (List Char) :=
  (cs.splitOnP isBlank).filter (fun w => !w.isEmpty)

/-- Remove one carriage return from the end. -/
def dropReturn (cs : List Char) : List Char :=
  if cs.getLast? = some '\r' then cs.dropLast else cs

/-- The lines of a text without their line ends.  A line feed ends a line, so
the piece after the last one counts only when it is not empty; only a line that
a line feed ended loses its carriage return. -/
def lines (cs : List Char) : List (List Char) :=
  let pieces := cs.splitOnP (· == '\n')
  let last := pieces.getLast?.getD []
  pieces.dropLast.map dropReturn ++ if last.isEmpty then [] else [last]

/-- The words of a list of parts put together, with one space between them. -/
def normalize (parts : List String) : String :=
  let joined := parts.flatMap String.toList
  String.ofList ((words joined).intersperse [' ']).flatten

end BookRules.Text
