/-
DiagramBoard.Diagram.Encoding — diagrams as JSON.

Every part of a diagram is a record; what is absent is left out, and a flag that is off too.
-/
import DiagramBoard.Diagram.Basic
import DiagramBoard.Json.Decode

namespace DiagramBoard

open Json Json.Fields

variable {α : Type} [Scalar α]

/-! ## Reading -/

/-- A box, all of it. -/
def Box.decode? (v : Json α) : Option (Box α) := do
  let f ← fields? ["x", "y", "width", "height"] 4 v
  return { x := ← f.required? scalar? "x"
           y := ← f.required? scalar? "y"
           width := ← f.required? scalar? "width"
           height := ← f.required? scalar? "height" }

/-- A point. -/
def Point.decode? (v : Json α) : Option (Point α) := do
  let f ← fields? ["x", "y"] 2 v
  return { x := ← f.required? scalar? "x", y := ← f.required? scalar? "y" }

/-- Style hints. -/
def StyleHints.decode? (v : Json α) : Option (StyleHints α) := do
  let f ← fields? ["strokeColor", "backgroundColor", "fillStyle", "strokeWidth", "strokeStyle",
    "roughness", "opacity", "fontSize", "fontFamily"] 9 v
  return { strokeColor := ← f.optional? text? "strokeColor"
           backgroundColor := ← f.optional? text? "backgroundColor"
           fillStyle := ← f.optional? (named? FillStyle.ofName?) "fillStyle"
           strokeWidth := ← f.optional? scalar? "strokeWidth"
           strokeStyle := ← f.optional? (named? StrokeStyle.ofName?) "strokeStyle"
           roughness := ← f.optional? scalar? "roughness"
           opacity := ← f.optional? scalar? "opacity"
           fontSize := ← f.optional? scalar? "fontSize"
           fontFamily := ← f.optional? word32? "fontFamily" }

/-- A visibility, by its mark. -/
def Visibility.ofName? (name : String) : Option Visibility :=
  match name.toList with
  | [c] => ofMark? c
  | _ => none

omit [Scalar α] in
/-- A member. -/
def Member.decode? (v : Json α) : Option Member := do
  let f ← fields? ["text", "visibility", "isStatic", "isAbstract"] 2 v
  return { text := ← f.required? text? "text"
           visibility := ← f.optional? (named? Visibility.ofName?) "visibility"
           isStatic := ← f.defaulted? bool? false "isStatic"
           isAbstract := ← f.defaulted? bool? false "isAbstract" }

/-- The members of a class. -/
def Sections.decode? (v : Json α) : Option Sections := do
  let f ← fields? ["attributes", "methods"] 2 v
  return { attributes := ← f.required? (list? Member.decode?) "attributes"
           methods := ← f.required? (list? Member.decode?) "methods" }

/-- A node. -/
def Node.decode? (v : Json α) : Option (Node α) := do
  let f ← fields? ["id", "label", "shape", "group", "geometry", "style", "sections",
    "lifelineEnd"] 8 v
  return { id := ← f.required? text? "id"
           label := ← f.required? text? "label"
           shape := ← f.required? (named? Shape.ofName?) "shape"
           group := ← f.optional? text? "group"
           box := ← f.optional? Box.decode? "geometry"
           style := ← f.optional? StyleHints.decode? "style"
           sections := ← f.optional? Sections.decode? "sections"
           lifelineEnd := ← f.optional? scalar? "lifelineEnd" }

/-- An edge. -/
def Edge.decode? (v : Json α) : Option (Edge α) := do
  let f ← fields? ["id", "from", "to", "label", "startArrow", "endArrow", "style", "points"] 8 v
  return { id := ← f.required? text? "id"
           source := ← f.required? text? "from"
           target := ← f.required? text? "to"
           label := ← f.optional? text? "label"
           startHead := ← f.required? (named? ArrowHead.ofName?) "startArrow"
           endHead := ← f.required? (named? ArrowHead.ofName?) "endArrow"
           style := ← f.optional? StyleHints.decode? "style"
           points := ← f.optional? (list? Point.decode?) "points" }

/-- A group. -/
def Group.decode? (v : Json α) : Option Group := do
  let f ← fields? ["id", "label", "children"] 3 v
  return { id := ← f.required? text? "id"
           label := ← f.required? text? "label"
           children := ← f.required? (list? text?) "children" }

/-- A diagram. -/
def Diagram.decode? (v : Json α) : Option (Diagram α) := do
  let f ← fields? ["type", "direction", "nodes", "edges", "groups"] 5 v
  return { kind := ← f.required? (named? DiagramKind.ofName?) "type"
           direction := ← f.required? (named? Direction.ofName?) "direction"
           nodes := ← f.required? (list? Node.decode?) "nodes"
           edges := ← f.required? (list? Edge.decode?) "edges"
           groups := ← f.required? (list? Group.decode?) "groups" }

/-! ## Writing -/

/-- A box as JSON. -/
def Box.encode (b : Box α) : Json α :=
  .record [("x", ofScalar b.x), ("y", ofScalar b.y), ("width", ofScalar b.width),
    ("height", ofScalar b.height)]

/-- A point as JSON. -/
def Point.encode (p : Point α) : Json α :=
  .record [("x", ofScalar p.x), ("y", ofScalar p.y)]

/-- Style hints as JSON. -/
def StyleHints.encode (s : StyleHints α) : Json α :=
  .record (optionalField .text "strokeColor" s.strokeColor
    ++ optionalField .text "backgroundColor" s.backgroundColor
    ++ optionalField (fun f => .text f.name) "fillStyle" s.fillStyle
    ++ optionalField ofScalar "strokeWidth" s.strokeWidth
    ++ optionalField (fun f => .text f.name) "strokeStyle" s.strokeStyle
    ++ optionalField ofScalar "roughness" s.roughness
    ++ optionalField ofScalar "opacity" s.opacity
    ++ optionalField ofScalar "fontSize" s.fontSize
    ++ optionalField (fun n => .int n) "fontFamily" s.fontFamily)

/-- A member as JSON. -/
def Member.encode (m : Member) : Json α :=
  .record ([("text", .text m.text)]
    ++ optionalField (fun v => .text (String.ofList [v.mark])) "visibility" m.visibility
    ++ (if m.isStatic then [("isStatic", .bool true)] else [])
    ++ (if m.isAbstract then [("isAbstract", .bool true)] else []))

/-- The members of a class as JSON. -/
def Sections.encode (s : Sections) : Json α :=
  .record [("attributes", .list (s.attributes.map Member.encode)),
    ("methods", .list (s.methods.map Member.encode))]

/-- A node as JSON. -/
def Node.encode (n : Node α) : Json α :=
  .record ([("id", .text n.id), ("label", .text n.label), ("shape", .text n.shape.name)]
    ++ optionalField .text "group" n.group
    ++ optionalField Box.encode "geometry" n.box
    ++ optionalField StyleHints.encode "style" n.style
    ++ optionalField Sections.encode "sections" n.sections
    ++ optionalField ofScalar "lifelineEnd" n.lifelineEnd)

/-- An edge as JSON. -/
def Edge.encode (e : Edge α) : Json α :=
  .record ([("id", .text e.id), ("from", .text e.source), ("to", .text e.target)]
    ++ optionalField .text "label" e.label
    ++ [("startArrow", .text e.startHead.name), ("endArrow", .text e.endHead.name)]
    ++ optionalField StyleHints.encode "style" e.style
    ++ optionalField (fun ps => .list (ps.map Point.encode)) "points" e.points)

/-- A group as JSON. -/
def Group.encode (g : Group) : Json α :=
  .record [("id", .text g.id), ("label", .text g.label),
    ("children", .list (g.children.map .text))]

/-- A diagram as JSON. -/
def Diagram.encode (d : Diagram α) : Json α :=
  .record [("type", .text d.kind.name), ("direction", .text d.direction.name),
    ("nodes", .list (d.nodes.map Node.encode)), ("edges", .list (d.edges.map Edge.encode)),
    ("groups", .list (d.groups.map Group.encode))]

end DiagramBoard
