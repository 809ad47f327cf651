/-
DiagramBoard.Proofs.Board.RoundTrip — nothing is lost of a diagram that is drawn and read again.

A board can hold a diagram whose nodes have their places, whose labels and members are spelled as
boards spell them and whose hints differ from the style of the board.  Reading it gives back every
node and every edge as they were.

Main statement: a diagram that a board can hold is read off the board on which it was drawn
(`diagram_draw`).
-/
import Mathlib
import DiagramBoard.Proofs.Board.DrawnDiagram

namespace DiagramBoard

open Board

variable {α : Type} [Scalar α]

/-! ## Diagrams that boards can hold -/

/-- Whether hints are none of the usual ways. -/
structure StyleHints.DiffersFrom (usual : BoardStyle α) (s : StyleHints α) : Prop where
  isEmpty : s.isEmpty = false
  strokeColor : ∀ v ∈ s.strokeColor, (v == usual.strokeColor) = false
  backgroundColor : ∀ v ∈ s.backgroundColor, (v == usual.backgroundColor) = false
  fillStyle : ∀ v ∈ s.fillStyle, (v == usual.fillStyle) = false
  strokeWidth : ∀ v ∈ s.strokeWidth, (v == usual.strokeWidth) = false
  strokeStyle : ∀ v ∈ s.strokeStyle, (v == usual.strokeStyle) = false
  roughness : ∀ v ∈ s.roughness, (v == usual.roughness) = false
  opacity : ∀ v ∈ s.opacity, (v == usual.opacity) = false
  fontSize : ∀ v ∈ s.fontSize, (v == usual.fontSize) = false
  fontFamily : ∀ v ∈ s.fontFamily, (v == usual.fontFamily) = false

/-- Whether a label comes back from a board, and is not empty. -/
structure Text.Label.IsStable (label : String) : Prop where
  viaCanvas : viaCanvas label = label
  ne_empty : label ≠ ""

/-- The width that some members of a class need. -/
def Pen.neededWidth (p : Pen α) (n : Node α) (members : List Member) : α :=
  (sectionOf members (p.memberFont n)).size.width + 10 * 2

/-- Whether a board can hold all of a node that a pen draws on it: the node has its place, and there
is room for its members. -/
structure Node.IsDrawable (p : Pen α) (n : Node α) : Prop where
  isPlaced : n.box.isSome = true
  lifelineEnd : n.lifelineEnd = none
  label : Text.Label.IsStable n.label
  style : ∀ s ∈ n.style, s.DiffersFrom p.board
  members : ∀ s ∈ n.sections, ∀ m ∈ s.members, m.IsStable
  isWide : ∀ s ∈ n.sections, ∀ b ∈ n.box, ∀ ms ∈ [s.attributes, s.methods],
    p.neededWidth n ms < b.width ∨ p.neededWidth n ms = b.width

/-- Whether a board can hold all of an edge, which has no way and no font of its own. -/
structure Edge.IsDrawable (board : BoardStyle α) (e : Edge α) : Prop where
  points : e.points = none
  label : ∀ l ∈ e.label, Text.Label.IsStable l
  style : ∀ s ∈ e.style, s.DiffersFrom board ∧ s.fontSize = none ∧ s.fontFamily = none

/-- Whether a board of the standard style can hold all of a diagram. -/
structure Diagram.IsDrawable (d : Diagram α) : Prop where
  ne_nil : d.nodes ≠ []
  nodup_nodeIds : d.nodeIds.Nodup
  nodup_edgeIds : (d.edges.map (·.id)).Nodup
  ends : ∀ e ∈ d.edges, e.source ∈ d.nodeIds ∧ e.target ∈ d.nodeIds
  nodes : ∀ n ∈ d.nodes, n.IsDrawable (Pen.forDiagram .standard d)
  edges : ∀ e ∈ d.edges, e.IsDrawable .standard
  shared : ∀ n ∈ d.nodes, ∀ g ∈ n.group, ∃ m ∈ d.nodes, m.id ≠ n.id ∧ m.group = some g
  sections_eq : d.kind.isClassLike = false → ∀ n ∈ d.nodes, n.sections = none

/-! ## Labels -/

omit [Scalar α] in
theorem Node.shownLabel_eq {n : Node α} (h : Text.Label.IsStable n.label) :
    n.shownLabel = n.label := by
  rw [shownLabel, h.viaCanvas, if_neg h.ne_empty]

omit [Scalar α] in
theorem Edge.shownLabel?_eq {e : Edge α} (h : ∀ l ∈ e.label, Text.Label.IsStable l) :
    e.shownLabel? = e.label := by
  rw [shownLabel?]
  cases hl : e.label with
  | none => rfl
  | some l =>
    have hstable := h l hl
    simp [hstable.viaCanvas, Option.filter, hstable.ne_empty]

/-! ## Hints -/

@[simp] theorem FillStyle.ofName?_name (s : FillStyle) : ofName? s.name = some s := by
  cases s <;> rfl

namespace Pen

variable {p : Pen α} {hints : Option (StyleHints α)}

/-- The looks of an element that a pen of the standard style draws are those of the hints. -/
theorem shownHints_styled (hself : ∀ n : Nat, ((n : α) == (n : α)) = true)
    (hboard : p.board = .standard) (id : String) (kind : ElementKind)
    (h : ∀ s ∈ hints, s.DiffersFrom .standard) :
    (p.styled id kind hints).shownHints
      = { hints.getD {} with fontSize := none, fontFamily := none } := by
  simp only [Element.shownHints, styled, strokeColor, hboard, Option.bind_some,
    FillStyle.ofName?_name, StrokeStyle.ofName?_name, StyleHints.mk.injEq, and_true]
  refine ⟨?_, ?_, ?_, ?_, ?_, ?_, ?_⟩
  · exact unusual_choose (beq_self_eq_true _) (fun s hs => (h s hs).strokeColor) rfl
  · exact unusual_choose (beq_self_eq_true _) (fun s hs => (h s hs).backgroundColor) rfl
  · exact unusual_choose (beq_self_eq_true _) (fun s hs => (h s hs).fillStyle) rfl
  · exact unusual_choose (hself 2) (fun s hs => (h s hs).strokeWidth) rfl
  · exact unusual_choose (beq_self_eq_true _) (fun s hs => (h s hs).strokeStyle) rfl
  · exact unusual_choose (hself 1) (fun s hs => (h s hs).roughness) rfl
  · exact unusual_choose (hself 100) (fun s hs => (h s hs).opacity) rfl

end Pen

/-- A number is the larger one of two if the other is less or the same. -/
theorem Scalar.larger_eq_left {a b : α} (h : b < a ∨ b = a) : larger a b = a := by
  rcases h with h | rfl
  · exact if_pos h
  · unfold larger
    split_ifs <;> rfl

namespace Pen

variable {p : Pen α} {hints : Option (StyleHints α)}

/-! ## Attached arrows -/

/-- Attaching arrows redraws the containers of a board. -/
def attaching (p : Pen α) (known : Identity) (d : Diagram α) : Redrawing α where
  redraw := Element.withArrows (p.allArrows known d)
  skeleton_redraw := Element.skeleton_withArrows _

theorem draw_eq_redrawn {known : Identity} {d : Diagram α} (h : (p.holderIds known d).Nodup) :
    p.draw known d = (redrawn (p.attaching known d) p h).elements := by
  rw [p.draw_eq_picture h, redrawn, Redrawing.elements_picture]
  rfl

theorem shownHints_attaching (known : Identity) (d : Diagram α) (e : Element α) :
    ((p.attaching known d).redraw e).shownHints = e.shownHints := by
  show (e.withArrows _).shownHints = _
  unfold Element.withArrows
  split <;> rfl

/-! ## Nodes -/

variable {known : Identity} {d : Diagram α}

/-- The looks of a node are read off its container and its label. -/
theorem hints_shownNode (hself : ∀ n : Nat, ((n : α) == (n : α)) = true)
    (hboard : p.board = .standard) {n : Node α} (h : ∀ s ∈ n.style, s.DiffersFrom .standard) :
    (shownNode (p.attaching known d) p known n).shown.hints = n.style.getD {} := by
  have hcontainer : (shownNode (p.attaching known d) p known n).container.shownHints
      = { n.style.getD {} with fontSize := none, fontFamily := none } := by
    refine (shownHints_attaching known d _).trans ?_
    rw [← shownHints_styled hself hboard "" .rectangle h]
    unfold nodePicture nodeDrawing
    cases n.sections <;> rfl
  have hlabel : (shownNode (p.attaching known d) p known n).label.fontSize
      = some (p.fontSize n.style)
      ∧ (shownNode (p.attaching known d) p known n).label.fontFamily
        = some (p.fontFamily n.style) := by
    show ((p.nodePicture n _).label.withArrows _).fontSize = _
      ∧ ((p.nodePicture n _).label.withArrows _).fontFamily = _
    unfold nodePicture nodeDrawing
    cases n.sections <;> exact ⟨rfl, rfl⟩
  have hsize : unusual (BoardStyle.standard : BoardStyle α).fontSize (some (p.fontSize n.style))
      = (n.style.getD {}).fontSize := by
    rw [fontSize, hboard]
    exact unusual_choose (hself 20) (fun s hs => (h s hs).fontSize) rfl
  have hfamily : unusual (BoardStyle.standard : BoardStyle α).fontFamily
      (some (p.fontFamily n.style)) = (n.style.getD {}).fontFamily := by
    rw [fontFamily, hboard]
    exact unusual_choose (beq_self_eq_true _) (fun s hs => (h s hs).fontFamily) rfl
  rw [Container.hints]
  simp only [NodePicture.shown, hcontainer, Option.bind_some, hlabel, hsize, hfamily]

/-- Hints are found again where there are any. -/
theorem nonEmpty?_getD (h : ∀ s ∈ hints, s.DiffersFrom .standard) :
    (hints.getD {}).nonEmpty? = hints := by
  cases hints with
  | none => rfl
  | some s =>
    rw [Option.getD_some, StyleHints.nonEmpty?, if_neg]
    simp [(h s rfl).isEmpty]

/-- A node with its place is drawn there. -/
theorem box_nodePicture {n : Node α} (h : n.IsDrawable p) (ids : NodeElements) :
    some (p.nodePicture n ids).container.box = n.box := by
  obtain ⟨b, hb⟩ := Option.isSome_iff_exists.1 h.isPlaced
  unfold nodePicture nodeDrawing
  cases hsections : n.sections with
  | none =>
    show some (n.box.getD _) = n.box
    rw [hb, Option.getD_some]
  | some sections =>
    have hwide := h.isWide sections hsections b hb
    have hattributes := Scalar.larger_eq_left (hwide sections.attributes (by simp))
    have hmethods := Scalar.larger_eq_left (hwide sections.methods (by simp))
    show some (classBox n _ (sectionOf sections.attributes (p.memberFont n))
      (sectionOf sections.methods (p.memberFont n))) = n.box
    rw [neededWidth] at hattributes hmethods
    simp only [classBox, classWidth, hb, Option.map_some, Option.getD_some, hattributes, hmethods]

/-- A node that a board can hold is read off it as it was. -/
theorem node_shownNode (hself : ∀ n : Nat, ((n : α) == (n : α)) = true)
    (hboard : p.board = .standard) {n : Node α} (h : n.IsDrawable p) :
    { (shownNode (p.attaching known d) p known n).shown.node with group := n.group } = n := by
  have hstyle : ∀ s ∈ n.style, s.DiffersFrom .standard := hboard ▸ h.style
  have hsections : n.sections.map Sections.viaCanvas = n.sections := by
    cases hs : n.sections with
    | none => rfl
    | some s => exact congrArg some (Sections.viaCanvas_eq_self (h.members s hs))
  have hhints : (shownNode (p.attaching known d) p known n).shown.hints = n.style.getD {} :=
    hints_shownNode hself hboard hstyle
  rw [shownNode] at hhints ⊢
  rw [shown_nodePicture, hhints, nonEmpty?_getD hstyle, box_nodePicture h, hsections,
    Node.shownLabel_eq h.label]
  cases n
  simp only [Node.mk.injEq, true_and]
  exact h.lifelineEnd.symm

/-! ## Edges -/

/-- An edge that a board can hold is read off it as it was. -/
theorem edge_shown (hself : ∀ n : Nat, ((n : α) == (n : α)) = true)
    (hboard : p.board = .standard) {e : Edge α} (h : e.IsDrawable .standard)
    (source target : Element α) (ids : EdgeElements) :
    ((p.attaching known d).edge (p.edgePicture e source target ids)).shown.edge = e := by
  have hstyle : ∀ s ∈ e.style, s.DiffersFrom .standard := fun s hs => (h.style s hs).1
  have hhints : (p.edgePicture e source target ids).arrow.shownHints = e.style.getD {} := by
    have hfonts : { e.style.getD {} with fontSize := none, fontFamily := none } = e.style.getD {} := by
      cases hs : e.style with
      | none => rfl
      | some s =>
        obtain ⟨-, hsize, hfamily⟩ := h.style s hs
        cases s
        simp_all
    rw [← hfonts, ← shownHints_styled hself hboard "" .arrow hstyle]
    unfold edgePicture edgeDrawing
    cases e.label <;> rfl
  rw [shown_edgePicture, shownHints_attaching, hhints, nonEmpty?_getD hstyle,
    Edge.shownLabel?_eq h.label]
  cases e
  simp only [Edge.mk.injEq, true_and]
  exact h.points.symm

end Pen

/-! ## Boards -/

/-- A diagram that a board can hold is read off the board on which it was drawn, if the elements of
the board have ids of their own: the kind and the direction, and all nodes and edges as they were. -/
theorem diagram_draw {d : Diagram Float} (hd : d.IsDrawable)
    (hids : ((d.draw .standard {}).map (·.id)).Nodup)
    (hgroups : ∀ n ∈ d.nodes, ∀ g ∈ n.group, g ∉ (d.draw .standard {}).map (·.id)) :
    (Board.diagram (d.draw .standard {})).kind = d.kind
      ∧ (Board.diagram (d.draw .standard {})).direction = d.direction
      ∧ (Board.diagram (d.draw .standard {})).nodes = d.nodes
      ∧ (Board.diagram (d.draw .standard {})).edges = d.edges := by
  let p := Pen.forDiagram .standard d
  have hholders : (p.holderIds {} d).Nodup := hids.sublist p.holderIds_sublist
  have hcontainer : ∀ n ∈ d.nodes, ∃ e ∈ p.draw {} d, e.kind.isContainer = true
      ∧ e.id = (Pen.nodeElements {} n).container := by
    intro n hn
    have hsound := (p.isSound_nodePicture n (Pen.nodeElements {} n)).container
    refine ⟨_, p.container_mem_draw {} hn, ?_, ?_⟩
    · exact (hsound.of_skeleton (Element.skeleton_withArrows _ _)).isContainer
    · rw [Element.withArrows_id, p.id_container_nodePicture]
  have hreadable : p.IsReadable {} d := by
    refine ⟨hd.ne_nil, hd.ends, hd.shared, ?_, ?_, .inl ⟨?_, ?_, hd.sections_eq⟩⟩
    · intro n hn e he hkind hid
      obtain ⟨c, hc, hcontainer, hcid⟩ := hcontainer n hn
      obtain rfl := List.inj_on_of_nodup_map hids he hc (hid.trans hcid.symm)
      exact absurd hcontainer (by simp [hkind])
    · intro n hn _ m hm hgroup
      obtain ⟨c, hc, -, hcid⟩ := hcontainer n hn
      exact hgroups m hm _ hgroup (hcid ▸ List.mem_map_of_mem hc)
    · exact fun n hn => (hd.nodes n hn).lifelineEnd
    · exact fun e he => (hd.edges e he).points
  have hself := Binary64.beq_ofNat
  have hread := Pen.diagram_redrawn (r := p.attaching {} d) (h := hholders) hreadable
  rw [← Pen.draw_eq_redrawn] at hread
  refine ⟨congrArg (·.kind) hread, congrArg (·.direction) hread,
    (congrArg (·.nodes) hread).trans ?_, (congrArg (·.edges) hread).trans ?_⟩
  · exact (List.map_congr_left fun n hn => Pen.node_shownNode hself rfl (hd.nodes n hn)).trans
      (List.map_id' _)
  · show ((d.edges.filterMap _).map _) = d.edges
    rw [List.map_filterMap]
    refine (List.filterMap_congr fun e he => ?_).trans List.filterMap_some
    obtain ⟨x, hx⟩ := Option.isSome_iff_exists.1 (p.isSome_edgePicture? {} hd.ends e he)
    obtain ⟨source, target, -, -, rfl⟩ := p.exists_of_edgePicture? hx
    rw [hx, Option.map_some, Pen.edge_shown hself rfl (hd.edges e he)]

/-- A class with members and one without any, in one group and joined by a dashed edge. -/
def catalogue : Diagram Float :=
  { kind := .classes
    direction := .right
    nodes :=
      [{ id := "Item", label := "Item<br/>sold", group := some "shop", box := some ⟨10, 20, 300, 180⟩
         style := some { strokeColor := some "#ff0000", fontSize := some 16 }
         sections := some
          { attributes := [{ text := "price", visibility := some .ownClass }]
            methods := [{ text := "sell()", visibility := some .everyone, isAbstract := true }] } },
        { id := "Thing", label := "Thing", shape := .stadium, group := some "shop"
          box := some ⟨10, 400, 150, 60⟩ }]
    edges :=
      [{ id := "Item->Thing_0", source := "Item", target := "Thing", label := some "is a"
         endHead := .triangleOutline, style := some (.stroke .dashed) }] }

/-- The catalogue is read off its board as it was. -/
theorem diagram_draw_catalogue :
    (Board.diagram (catalogue.draw .standard {})).kind = .classes
      ∧ (Board.diagram (catalogue.draw .standard {})).direction = .right
      ∧ (Board.diagram (catalogue.draw .standard {})).nodes = catalogue.nodes
      ∧ (Board.diagram (catalogue.draw .standard {})).edges = catalogue.edges := by
  refine diagram_draw ⟨by simp [catalogue], by decide, by decide, by decide, ?_, ?_, ?_, ?_⟩
    (by decide +kernel) (by decide +kernel)
  · intro n hn
    simp only [catalogue, List.mem_cons, List.not_mem_nil, or_false] at hn
    rcases hn with rfl | rfl
    · refine ⟨rfl, rfl, ⟨by decide +kernel, by decide⟩, ?_, ?_, ?_⟩
      · rintro _ ⟨⟩
        constructor <;> decide +kernel
      · rintro _ ⟨⟩ m hm
        simp only [Sections.members, List.cons_append, List.nil_append, List.mem_cons,
          List.not_mem_nil, or_false] at hm
        rcases hm with rfl | rfl <;> constructor <;> decide +kernel
      · rintro _ ⟨⟩ _ ⟨⟩ ms hms
        simp only [List.mem_cons, List.not_mem_nil, or_false] at hms
        rcases hms with rfl | rfl <;> exact .inl (by decide +kernel)
    · refine ⟨rfl, rfl, ⟨by decide +kernel, by decide⟩, ?_, ?_, ?_⟩ <;> rintro _ ⟨⟩
  · intro e he
    obtain rfl := List.mem_singleton.1 he
    refine ⟨rfl, ?_, ?_⟩
    · rintro _ ⟨⟩
      exact ⟨by decide +kernel, by decide⟩
    · rintro _ ⟨⟩
      refine ⟨?_, rfl, rfl⟩
      constructor <;> decide +kernel
  · decide
  · exact fun h => nomatch h

end DiagramBoard
