/-
DiagramBoard.Board.Live — what belongs to an element or to a node among the elements of a board.

The functions take the live elements, those that are not deleted, in the order of the board.  A
label is a text inside another element; the segments of a class are elements that name the class as
their owner.  Where several elements could be meant, the last one is.
-/
import DiagramBoard.Board.Element
import DiagramBoard.Text.Label

namespace DiagramBoard

namespace Board

variable {α : Type}

/-- The elements that are not deleted. -/
def live (elements : List (Element α)) : List (Element α) :=
  elements.filter fun e => !e.isDeleted

/-- The text inside an element. -/
def labelOf? (live : List (Element α)) (elementId : String) : Option (Element α) :=
  (live.filter fun e => e.kind = .text && e.containerId = some elementId).getLast?

/-- The text of a label as a diagram has it, unless it is empty. -/
def labelText? (label : Option (Element α)) : Option String :=
  (label.map fun e => String.ofList (Text.Label.ofCanvas e.textContent.toList)).filter (· ≠ "")

/-- The texts of a class and the ids of the elements that they come from. -/
structure Segments where
  attributes : Option String := none
  methods : Option String := none
  ids : List String := []
deriving DecidableEq, Repr

/-- Whether an element has a tag, known or not, and a node as its owner. -/
def isOwnedBy (owner : String) (e : Element α) : Bool :=
  match e.metadata with
  | none => false
  | some m => m.tag.isSome && m.ownerId = some owner

/-- Whether an element is a segment of a class. -/
def isSegment (e : Element α) : Bool :=
  match e.tag? with
  | some .classAttributes | some .classMethods | some .classSeparator => true
  | _ => false

/-- The text of the last element with a tag. -/
def lastText? (tag : Tag) (elements : List (Element α)) : Option String :=
  (elements.filter (·.tag? = some tag)).getLast?.map (·.textContent)

/-- The segments of a class, if any tagged element names it as its owner. -/
def segmentsOf? (live : List (Element α)) (owner : String) : Option Segments :=
  match live.filter (isOwnedBy owner) with
  | [] => none
  | owned => some
    { attributes := lastText? .classAttributes owned
      methods := lastText? .classMethods owned
      ids := (owned.filter isSegment).map (·.id) }

/-- The metadata that say what diagram a board shows: those of the first container that do. -/
def heading? (live : List (Element α)) : Option (Metadata α) :=
  (live.filter (·.kind.isContainer)).findSome? fun e => e.metadata.filter (·.diagram.isSome)

end Board

end DiagramBoard
