/-!
The lines of a text. A line ends in a line feed, and a carriage return in front of it belongs to
the line end.
-/
namespace GpuPlacement

/-- A line, last character first, without the carriage return at its end. -/
def dropReturn : List Char → List Char
  | '\r' :: rest => rest
  | line => line

/-- The lines behind the characters that the current line has so far, last character first. What
stands behind the last line feed is a line of its own unless it is empty. -/
def linesFrom (current : List Char) : List Char → List (List Char)
  | [] => if current.isEmpty then [] else [current.reverse]
  | '\n' :: rest => (dropReturn current).reverse :: linesFrom [] rest
  | c :: rest => linesFrom (c :: current) rest

def textLines (text : String) : List String :=
  (linesFrom [] text.toList).map String.ofList

/-- The text with every line end written as one line feed. -/
def settleLineEnds (text : String) : String :=
  String.join ((textLines text).map (· ++ "\n"))

end GpuPlacement
