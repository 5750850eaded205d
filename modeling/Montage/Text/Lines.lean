/-!
# Lines

`lines` cuts a text into its lines.  A line ends at a line feed; one carriage return just before
that line feed belongs to the line end.  Text after the last line feed is a line of its own unless
it is empty.
-/

namespace Montage.Text

/-- The lines of a text, without their line ends. -/
def lines : List Char → List (List Char)
  | [] => []
  | '\r' :: '\n' :: cs => [] :: lines cs
  | '\n' :: cs => [] :: lines cs
  | c :: cs =>
    match lines cs with
    | [] => [[c]]
    | l :: ls => (c :: l) :: ls

end Montage.Text
