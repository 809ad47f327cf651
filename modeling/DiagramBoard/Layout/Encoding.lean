/-
DiagramBoard.Layout.Encoding — layout options as JSON, every one of them with a default.
-/
import DiagramBoard.Json.Decode
import DiagramBoard.Layout.Size

namespace DiagramBoard.Layout

open Json Json.Fields

variable {α : Type} [Scalar α]

/-- Layout options; what is missing is as in the standard ones. -/
def Options.decode? (v : Json α) : Option (Options α) := do
  let f ← fields? ["nodeSep", "rankSep", "defaultWidth", "defaultHeight", "forceRelayout"] 0 v
  let standard : Options α := .standard
  return { nodeSep := ← f.defaulted? scalar? standard.nodeSep "nodeSep"
           rankSep := ← f.defaulted? scalar? standard.rankSep "rankSep"
           defaultWidth := ← f.defaulted? scalar? standard.defaultWidth "defaultWidth"
           defaultHeight := ← f.defaulted? scalar? standard.defaultHeight "defaultHeight"
           forceRelayout := ← f.defaulted? bool? standard.forceRelayout "forceRelayout" }

end DiagramBoard.Layout
