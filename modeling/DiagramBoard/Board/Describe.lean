/-
DiagramBoard.Board.Describe — the text of the diagram that a board shows.
-/
import DiagramBoard.Board.Reading
import DiagramBoard.Writer

namespace DiagramBoard.Board

/-- The text of the diagram that a board shows, in full or in compact form. -/
def describe {α : Type} [Scalar α] (compact : Bool) (elements : List (Element α)) : String :=
  (diagram elements).render compact

end DiagramBoard.Board
