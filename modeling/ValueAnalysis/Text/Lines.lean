/-!
Lines of a text. A line ends at a line feed and nowhere else.
-/

namespace ValueAnalysis.Text

/-- The lines of the text `current.reverse ++ rest`, where `current` has no line feed. What stands behind
the last line feed is a line unless it is empty. -/
def splitLines (current : List Char) : List Char → List (List Char)
  | [] => if current = [] then [] else [current.reverse]
  | c :: rest => if c = '\n' then current.reverse :: splitLines [] rest else splitLines (c :: current) rest

def lines (s : String) : List String := (splitLines [] s.toList).map String.ofList

end ValueAnalysis.Text
