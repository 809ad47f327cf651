/-
DiagramBoard.Reconcile — bringing a board up to date with a diagram text.

The managed elements of the board show an older state of the diagram.  Its nodes keep their places
in the new one, new nodes find theirs beside them, and what is drawn takes over the ids and the
looks of the elements that were there.  All other elements stay as they are, in front of those
drawn.

Main statements: elements that are not managed stay in front of all others (`reconcile_eq`), and
only a text that is no diagram fails (`reconcile_isOk`).
-/
import DiagramBoard.Board.Drawing
import DiagramBoard.Board.Item
import DiagramBoard.Board.Managed
import DiagramBoard.Board.Reading
import DiagramBoard.Board.Refresh
import DiagramBoard.Change
import DiagramBoard.Grammar
import DiagramBoard.Layout
import DiagramBoard.Layout.Encoding

namespace DiagramBoard

variable {α : Type} [Scalar α]

/-- How a board is brought up to date. -/
structure ReconcileOptions (α : Type) where
  layout : Layout.Options α
  /-- The style of new elements; that of the board if none is given. -/
  board : Option (BoardStyle α) := none

namespace ReconcileOptions

/-- The options when nothing is asked for. -/
def standard : ReconcileOptions α := { layout := .standard }

open Json Json.Fields in
/-- Options; what is missing is as in the standard ones. -/
def decode? (v : Json α) : Option (ReconcileOptions α) := do
  let f ← fields? ["layout", "board"] 0 v
  return { layout := ← f.defaulted? Layout.Options.decode? .standard "layout"
           board := ← f.optional? BoardStyle.decode? "board" }

end ReconcileOptions

/-! ## Places -/

namespace Diagram

/-- A diagram whose nodes have the hints they had before, unless they have their own. -/
def keepHints (current d : Diagram α) : Diagram α :=
  { d with nodes := d.nodes.map fun n =>
      { n with style := n.style.or ((current.node? n.id).bind (·.style)) } }

/-- Whether some node has a place. -/
def hasPlaces (d : Diagram α) : Bool := d.nodes.any (·.box.isSome)

/-- The new diagram with a place for every node.  A change of direction moves all of them; otherwise
only new nodes get a new place. -/
def placeAfter (options : Layout.Options α) (current target : Diagram α) : Diagram α :=
  let change := DiagramChange.between current target
  let carried := keepHints current (change.carryPlaces target)
  if change.directionChanged && !current.nodes.isEmpty then
    carried.layout { options with forceRelayout := true }
  else if !change.addedIds.isEmpty && carried.hasPlaces && !options.forceRelayout
      && carried.kind.strategy ≠ .lanes then
    carried.layoutNew options change.addedIds
  else carried.layout options

end Diagram

/-! ## Elements -/

namespace Board

/-- The last live element with an id. -/
def liveElement? (elements : List (Element α)) (id : String) : Option (Element α) :=
  ((live elements).filter (·.id = id)).getLast?

/-- A drawn element, refreshed if the board has it already. -/
def refreshed (managedIds : List String) (managed : List (Element α)) (drawn : Element α) :
    Item α :=
  match liveElement? managed drawn.id with
  | some old => .drawn (old.refresh managedIds drawn)
  | none => .drawn drawn

/-- The elements of a board that is brought up to date with a diagram. -/
def update (options : ReconcileOptions α) (target : Diagram α) (items : List (Item α)) :
    List (Item α) :=
  let elements := items.map (·.element)
  let ids := managedIds elements
  let managed := elements.filter fun e => ids.contains e.id
  let current := read managed
  let placed := Diagram.placeAfter options.layout current.diagram target
  let board := options.board.getD (BoardStyle.infer elements)
  (items.filter fun i => !ids.contains i.element.id)
    ++ (placed.draw board current.identity).map (refreshed ids managed)

end Board

/-- Brings the elements of a board up to date with a text. -/
def reconcile (options : ReconcileOptions α) (text : String) (items : List (Item α)) :
    Except SyntaxError (List (Item α)) :=
  (Diagram.parse text).map fun target => Board.update options target items

/-- Elements that are not managed stay in front of all others. -/
theorem reconcile_eq {options : ReconcileOptions α} {text : String} {items out : List (Item α)}
    (h : reconcile options text items = .ok out) :
    ∃ drawn, out = (items.filter fun i =>
      !(Board.managedIds (items.map (·.element))).contains i.element.id) ++ drawn := by
  unfold reconcile at h
  cases hp : (Diagram.parse text : Except SyntaxError (Diagram α)) with
  | error e => simp [hp, Except.map] at h
  | ok target =>
    simp only [hp, Except.map, Except.ok.injEq] at h
    exact ⟨_, h.symm⟩

/-- Only a text that is no diagram fails. -/
theorem reconcile_isOk {options : ReconcileOptions α} {text : String} {items : List (Item α)} :
    (reconcile options text items).isOk = (Diagram.parse text (α := α)).isOk := by
  unfold reconcile
  cases (Diagram.parse text : Except SyntaxError (Diagram α)) <;> rfl

end DiagramBoard
