/-
DiagramBoard.Board.Encoding — elements as JSON.

Reading keeps the fields that it does not know; writing gives them back behind the others.
-/
import DiagramBoard.Board.Element
import DiagramBoard.Json.Decode

namespace DiagramBoard

open Json Json.Fields

variable {α : Type} [Scalar α]

/-! ## Small records -/

/-- An element kind, by name. -/
def ElementKind.decode? (v : Json α) : Option ElementKind := (text? v).map ofName

/-- An element that belongs to another. -/
def BoundElement.decode? (v : Json α) : Option BoundElement := do
  let f ← fields? ["id", "type"] 2 v
  return { id := ← f.required? text? "id", kind := ← f.required? ElementKind.decode? "type" }

/-- Where an arrow is fixed. -/
def Binding.decode? (v : Json α) : Option (Binding α) := do
  let f ← fields? ["elementId", "focus", "gap"] 1 v
  return { elementId := ← f.required? text? "elementId"
           focus := ← f.defaulted? scalar? 0 "focus"
           gap := ← f.defaulted? scalar? 0 "gap" }

/-- How corners are rounded. -/
def Roundness.decode? (v : Json α) : Option (Roundness α) := do
  let f ← fields? ["type", "value"] 1 v
  return { kind := ← f.required? word32? "type", value := ← f.optional? scalar? "value" }

/-- A point of an element, a list of two numbers. -/
def elementPoint? : Json α → Option (Point α)
  | .list [x, y] => do return ⟨← scalar? x, ← scalar? y⟩
  | _ => none

/-- The fields of a record that is written with its names. -/
def record? : Json α → Option (Fields α)
  | .record fields => some fields
  | _ => none

/-! ## Metadata -/

/-- The fields of metadata that are read. -/
def Metadata.names : List String :=
  ["nodeId", "edgeId", "id", "shape", "type", "ownerId", "participantId", "from", "to", "diagram",
    "direction"]

/-- Metadata. -/
def Metadata.decode? (v : Json α) : Option (Metadata α) := do
  let f ← record? v
  return { nodeId := ← f.optional? text? "nodeId"
           edgeId := ← f.optional? text? "edgeId"
           id := ← f.optional? text? "id"
           shape := ← f.optional? text? "shape"
           tag := ← f.optional? text? "type"
           ownerId := ← f.optional? text? "ownerId"
           participantId := ← f.optional? text? "participantId"
           source := ← f.optional? text? "from"
           target := ← f.optional? text? "to"
           diagram := ← f.optional? text? "diagram"
           direction := ← f.optional? text? "direction"
           extra := f.without names }

/-- Metadata as JSON. -/
def Metadata.encode (m : Metadata α) : Json α :=
  .record (optionalField .text "nodeId" m.nodeId
    ++ optionalField .text "edgeId" m.edgeId
    ++ optionalField .text "id" m.id
    ++ optionalField .text "shape" m.shape
    ++ optionalField .text "type" m.tag
    ++ optionalField .text "ownerId" m.ownerId
    ++ optionalField .text "participantId" m.participantId
    ++ optionalField .text "from" m.source
    ++ optionalField .text "to" m.target
    ++ optionalField .text "diagram" m.diagram
    ++ optionalField .text "direction" m.direction
    ++ m.extra)

/-! ## Elements -/

/-- The fields of an element that are read. -/
def Element.names : List String :=
  ["id", "type", "x", "y", "width", "height", "angle", "strokeColor", "backgroundColor",
    "fillStyle", "strokeWidth", "strokeStyle", "roughness", "opacity", "seed", "version",
    "versionNonce", "isDeleted", "groupIds", "boundElements", "locked", "roundness", "points",
    "startBinding", "endBinding", "startArrowhead", "endArrowhead", "text", "originalText",
    "fontSize", "fontFamily", "textAlign", "verticalAlign", "containerId", "lineHeight",
    "customData"]

/-- The version of an element. -/
def version? (v : Json α) : Option UInt64 := (word64? v).map .ofNat

/-- An element. -/
def Element.decode? (v : Json α) : Option (Element α) := do
  let f ← record? v
  return { id := ← f.required? text? "id"
           kind := ← f.required? ElementKind.decode? "type"
           x := ← f.defaulted? scalar? 0 "x"
           y := ← f.defaulted? scalar? 0 "y"
           width := ← f.defaulted? scalar? 0 "width"
           height := ← f.defaulted? scalar? 0 "height"
           angle := ← f.defaulted? scalar? 0 "angle"
           strokeColor := ← f.optional? text? "strokeColor"
           backgroundColor := ← f.optional? text? "backgroundColor"
           fillStyle := ← f.optional? text? "fillStyle"
           strokeWidth := ← f.optional? scalar? "strokeWidth"
           strokeStyle := ← f.optional? text? "strokeStyle"
           roughness := ← f.optional? scalar? "roughness"
           opacity := ← f.optional? scalar? "opacity"
           seed := ← f.optional? word64? "seed"
           version := ← f.optional? version? "version"
           versionNonce := ← f.optional? word64? "versionNonce"
           isDeleted := ← f.defaulted? bool? false "isDeleted"
           groupIds := ← f.defaulted? (list? text?) [] "groupIds"
           boundElements := ← f.optional? (list? BoundElement.decode?) "boundElements"
           locked := ← f.defaulted? bool? false "locked"
           roundness := ← f.optional? Roundness.decode? "roundness"
           points := ← f.optional? (list? elementPoint?) "points"
           startBinding := ← f.optional? Binding.decode? "startBinding"
           endBinding := ← f.optional? Binding.decode? "endBinding"
           startArrowhead := ← f.optional? text? "startArrowhead"
           endArrowhead := ← f.optional? text? "endArrowhead"
           text := ← f.optional? text? "text"
           originalText := ← f.optional? text? "originalText"
           fontSize := ← f.optional? scalar? "fontSize"
           fontFamily := ← f.optional? word32? "fontFamily"
           textAlign := ← f.optional? text? "textAlign"
           verticalAlign := ← f.optional? text? "verticalAlign"
           containerId := ← f.optional? text? "containerId"
           lineHeight := ← f.optional? scalar? "lineHeight"
           metadata := ← f.optional? Metadata.decode? "customData"
           extra := f.without names }

/-- A natural number as JSON. -/
def natural (n : Nat) : Json α := .int n

/-- A version as JSON. -/
def encodeVersion (n : UInt64) : Json α := natural n.toNat

/-- An element that belongs to another, as JSON. -/
def BoundElement.encode (b : BoundElement) : Json α :=
  .record [("id", .text b.id), ("type", .text b.kind.name)]

/-- Where an arrow is fixed, as JSON. -/
def Binding.encode (b : Binding α) : Json α :=
  .record [("elementId", .text b.elementId), ("focus", ofScalar b.focus), ("gap", ofScalar b.gap)]

/-- How corners are rounded, as JSON. -/
def Roundness.encode (r : Roundness α) : Json α :=
  .record ([("type", natural r.kind)] ++ optionalField ofScalar "value" r.value)

/-- A point of an element as JSON. -/
def encodePoint (p : Point α) : Json α := .list [ofScalar p.x, ofScalar p.y]

/-- An element as JSON, from its fields. -/
def Element.encode (e : Element α) : Json α :=
  .record ([("id", .text e.id), ("type", .text e.kind.name), ("x", ofScalar e.x),
      ("y", ofScalar e.y), ("width", ofScalar e.width), ("height", ofScalar e.height),
      ("angle", ofScalar e.angle)]
    ++ optionalField .text "strokeColor" e.strokeColor
    ++ optionalField .text "backgroundColor" e.backgroundColor
    ++ optionalField .text "fillStyle" e.fillStyle
    ++ optionalField ofScalar "strokeWidth" e.strokeWidth
    ++ optionalField .text "strokeStyle" e.strokeStyle
    ++ optionalField ofScalar "roughness" e.roughness
    ++ optionalField ofScalar "opacity" e.opacity
    ++ optionalField natural "seed" e.seed
    ++ optionalField encodeVersion "version" e.version
    ++ optionalField natural "versionNonce" e.versionNonce
    ++ [("isDeleted", .bool e.isDeleted), ("groupIds", .list (e.groupIds.map .text))]
    ++ optionalField (fun bs => .list (bs.map BoundElement.encode)) "boundElements" e.boundElements
    ++ [("locked", .bool e.locked)]
    ++ optionalField Roundness.encode "roundness" e.roundness
    ++ optionalField (fun ps => .list (ps.map encodePoint)) "points" e.points
    ++ optionalField Binding.encode "startBinding" e.startBinding
    ++ optionalField Binding.encode "endBinding" e.endBinding
    ++ optionalField .text "startArrowhead" e.startArrowhead
    ++ optionalField .text "endArrowhead" e.endArrowhead
    ++ optionalField .text "text" e.text
    ++ optionalField .text "originalText" e.originalText
    ++ optionalField ofScalar "fontSize" e.fontSize
    ++ optionalField natural "fontFamily" e.fontFamily
    ++ optionalField .text "textAlign" e.textAlign
    ++ optionalField .text "verticalAlign" e.verticalAlign
    ++ optionalField .text "containerId" e.containerId
    ++ optionalField ofScalar "lineHeight" e.lineHeight
    ++ optionalField Metadata.encode "customData" e.metadata
    ++ e.extra)

end DiagramBoard
