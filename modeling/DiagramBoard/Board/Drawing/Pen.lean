/-
DiagramBoard.Board.Drawing.Pen — what elements are drawn with.

A pen draws in the style of a board, and every container that it draws says what diagram it is part
of.  Hints override the style.  What is random on other boards, seeds and nonces, is made of the
element's id, so that drawing twice gives the same elements.
-/
import DiagramBoard.Board.DerivedId
import DiagramBoard.Board.Style
import DiagramBoard.Layout.Size

namespace DiagramBoard

/-- What drawing needs to know beside the part that is drawn. -/
structure Pen (α : Type) where
  board : BoardStyle α
  kind : DiagramKind
  direction : Direction

namespace Pen

variable {α : Type}

/-- The pen for a diagram. -/
def forDiagram (board : BoardStyle α) (d : Diagram α) : Pen α :=
  { board := board, kind := d.kind, direction := d.direction }

/-- The hint of some hints, or else the board's own way. -/
def choose {β : Type} (hints : Option (StyleHints α)) (hint : StyleHints α → Option β)
    (otherwise : β) : β :=
  (hints.bind hint).getD otherwise

/-- The colour of strokes. -/
def strokeColor (p : Pen α) (hints : Option (StyleHints α)) : String :=
  choose hints (·.strokeColor) p.board.strokeColor

/-- The size of fonts. -/
def fontSize (p : Pen α) (hints : Option (StyleHints α)) : α :=
  choose hints (·.fontSize) p.board.fontSize

/-- The font. -/
def fontFamily (p : Pen α) (hints : Option (StyleHints α)) : Nat :=
  choose hints (·.fontFamily) p.board.fontFamily

/-- What the containers of a diagram say about it. -/
def heading (p : Pen α) : Metadata α :=
  { diagram := some p.kind.name, direction := some p.direction.name }

variable [Scalar α]

/-- An element in the style of the board, without a place. -/
def styled (p : Pen α) (id : String) (kind : ElementKind) (hints : Option (StyleHints α)) :
    Element α :=
  let blank : Element α := Element.bare id kind
  let board := p.board
  { blank with
    strokeColor := some (p.strokeColor hints)
    backgroundColor := some (choose hints (·.backgroundColor) board.backgroundColor)
    fillStyle := some (choose hints (·.fillStyle) board.fillStyle).name
    strokeWidth := some (choose hints (·.strokeWidth) board.strokeWidth)
    strokeStyle := some (choose hints (·.strokeStyle) board.strokeStyle).name
    roughness := some (choose hints (·.roughness) board.roughness)
    opacity := some (choose hints (·.opacity) board.opacity)
    seed := some (Board.derivedSeed id "seed")
    version := some 1
    versionNonce := some (Board.derivedSeed id "v1")
    extra := [("frameId", .null), ("link", .null)] }

/-- The height of a line of text, in font sizes. -/
def lineHeight : α := 1.25

/-- The height of the base line of a font. -/
def baseline (fontSize : α) : Json α := Json.ofScalar (Scalar.round (fontSize * 0.8))

/-- An element with a text in it. -/
def written (text : String) (fontSize : α) (fontFamily : Nat) (e : Element α) : Element α :=
  { e with
    text := some text
    originalText := some text
    fontSize := some fontSize
    fontFamily := some fontFamily
    lineHeight := some lineHeight
    backgroundColor := some "transparent" }

/-- A label inside a container, with its size but without a place. -/
def label (p : Pen α) (id : String) (text : String) (hints : Option (StyleHints α))
    (containerId : String) : Element α :=
  let fontSize := p.fontSize hints
  let size := Layout.textSize text.toList fontSize
  let plain := written (String.ofList (Text.Label.toCanvas text.toList)) fontSize
    (p.fontFamily hints) (p.styled id .text none)
  { plain with
    strokeColor := some (p.strokeColor hints)
    width := size.width
    height := size.height
    textAlign := some "center"
    verticalAlign := some "middle"
    containerId := some containerId
    extra := plain.extra.insert "baseline" (baseline fontSize) }

end Pen

end DiagramBoard
