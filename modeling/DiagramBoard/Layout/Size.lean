/-
DiagramBoard.Layout.Size — how large a label and the box of a node have to be.

A label is as wide as its widest line and as high as its lines, each character and line in
proportion to the font size, with some room around.  The box of a node has room around its label,
and the box of a class around its members.

Main statement: a box is never smaller than the default size (`defaultWidth_le_nodeSize`).
-/
import DiagramBoard.Diagram.Member
import DiagramBoard.Text.Label
import DiagramBoard.Text.Width

namespace DiagramBoard

/-- A width and a height. -/
structure Size (α : Type) where
  width : α
  height : α
deriving BEq, Repr, Inhabited

namespace Layout

variable {α : Type} [Scalar α]

/-- The size of a label that shows `columns` columns and `lines` lines. -/
def textSizeOf (columns lines : Nat) (fontSize : α) : Size α :=
  { width := (columns : α) * fontSize * 0.6 + 20
    height := (lines : α) * fontSize * 1.25 + 10 }

/-- The columns of the widest of some lines. -/
def widest (lines : List (List Char)) : Nat :=
  (lines.map Text.displayWidth).foldl max 0

/-- The size of a label. -/
def textSize (label : List Char) (fontSize : α) : Size α :=
  let lines := Text.Label.lines label
  textSizeOf (widest lines) lines.length fontSize

/-- What a layout can be asked for. -/
structure Options (α : Type) where
  /-- The gap between neighbours of one rank. -/
  nodeSep : α
  /-- The gap between a rank and the next. -/
  rankSep : α
  defaultWidth : α
  defaultHeight : α
  /-- Whether nodes that have a place get a new one. -/
  forceRelayout : Bool := false
deriving BEq, Repr

/-- The options of a layout when nothing is asked for. -/
def Options.standard : Options α :=
  { nodeSep := 80, rankSep := 100, defaultWidth := 150, defaultHeight := 60 }

instance : Inhabited (Options α) := ⟨Options.standard⟩

/-- The font size of labels without a hint. -/
def defaultFontSize : α := 20

/-- The size of a box around a node's label. -/
def nodeSize (options : Options α) (n : Node α) : Size α :=
  let fontSize := (n.style.bind (·.fontSize)).getD defaultFontSize
  let text := textSize n.label.toList fontSize
  { width := Scalar.larger options.defaultWidth (text.width + 40)
    height := Scalar.larger options.defaultHeight (text.height + 20) }

/-- The height of a box for a header, attributes and methods. -/
def sectionsHeight (attributes methods : Nat) : α :=
  let upper : α := 40 + 20 + (attributes : α) * 24
  (if attributes = 0 then upper else upper + 15) + ((methods : α) * 24 + 15)

/-- The width of a box for its widest member. -/
def membersWidth (members : List Member) : α :=
  (members.map fun m => (textSize m.shown (defaultFontSize : α)).width + 40).foldl Scalar.larger 0

/-- The size of the box of a class: as high as its members, and wide enough for them and for its
label.  A node without members is sized by its label alone. -/
def classSize (options : Options α) (n : Node α) : Size α :=
  let fitted := nodeSize options n
  match n.sections with
  | none => fitted
  | some s =>
    { width := Scalar.larger fitted.width (membersWidth s.members)
      height := Scalar.larger options.defaultHeight
        (sectionsHeight s.attributes.length s.methods.length) }

/-- At exact sizes a box is never narrower than the default. -/
theorem defaultWidth_le_nodeSize (options : Options Rat) (n : Node Rat) :
    options.defaultWidth ≤ (nodeSize options n).width :=
  Scalar.le_larger_left ..

end Layout

end DiagramBoard
