/-
DiagramBoard.Proofs.Reconcile.Kept — the elements that a board keeps for the parts of a text.

A part of a diagram is drawn on the elements that reading finds for it: a node on the first
container that shows it, an edge on the last arrow that does and whose ends can be told.  So these two
come back under their ids, and only a part without any gets a new element.  The table has room for no
others: a second container of a node, an earlier arrow of an edge and an arrow with an end that nothing
tells are managed as well, and gone when the board is brought up to date.

Main statement: the containers and arrows that reading finds for the parts of a text stay on the
board (`reconcile_keepsShown`).
-/
import DiagramBoard.Proofs.Reconcile.Output

namespace DiagramBoard

open Board

variable {α : Type} [Scalar α]

namespace Board

/-- The last live arrow that shows an edge, among those whose ends can be told.  The nodes that its
metadata name need not be on the board. -/
def shownArrow? (elements : List (Element α)) (id : String) : Option (Element α) :=
  let cs := containers (live elements)
  let shown := (connectors (shownKind (live elements) cs) (live elements) cs).filter (·.edgeId = id)
  shown.getLast?.map (·.element)

/-- The table starts the elements of an edge with its arrow. -/
theorem arrow_edge?_read (elements : List (Element α)) (id : String) :
    ((Board.read elements).identity.edge? id).map (·.arrow)
      = (shownArrow? elements id).map (·.id) := by
  simp only [Board.read]
  rw [edge?_shownIdentity, Option.map_map, shownArrow?, Option.map_map]
  rfl

end Board

namespace Pen

variable (p : Pen α) (known : Identity) {d : Diagram α}

/-- The arrow of every edge between nodes is drawn. -/
theorem arrow_mem_draw {x : EdgePicture α} (hx : x ∈ p.allEdges known d) :
    x.arrow ∈ p.draw known d :=
  p.mem_draw_of_edge known hx List.mem_cons_self

end Pen

namespace Board

variable (options : ReconcileOptions α) (elements : List (Element α)) {target : Diagram α}

/-- A node is drawn again on the first container that shows it. -/
theorem exists_container_renewedOn {id : String} (hid : id ∈ target.nodeIds) :
    ∃ i ∈ renewedOn options elements target,
      i.element.id
          = ((shownContainer? (managed elements) id).map (·.id)).getD (derivedId "node" id)
        ∧ i.element.IsContainerOf target.kind target.direction id := by
  let p := penOn options elements target
  let known := (Board.read (managed elements)).identity
  have hcontent := content_placedOn options elements target
  rw [← Diagram.nodeIds_of_content hcontent] at hid
  obtain ⟨n, hn, rfl⟩ := List.mem_map.1 hid
  -- reading the board finds the container for the node
  have hknown : (Pen.nodeElements known n).container
      = ((shownContainer? (managed elements) n.id).map (·.id)).getD (derivedId "node" n.id) := by
    rw [Pen.nodeElements, Node.elementIds, container_node?_read]
  have hskeleton := (skeleton_refreshed (managedIds elements) (managed elements) _).trans
    (Element.skeleton_withArrows (p.allArrows known (placedOn options elements target))
      (p.nodePicture n (Pen.nodeElements known n)).container)
  refine ⟨_, List.mem_map_of_mem (p.container_mem_draw known hn), ?_, ?_⟩
  · rw [← hknown, ← p.id_container_nodePicture n]
    exact congrArg (·.id) hskeleton
  · have hshows := (p.isSound_nodePicture n (Pen.nodeElements known n)).container
    rw [show p.kind = target.kind from congrArg (·.kind) hcontent,
      show p.direction = target.direction from congrArg (·.direction) hcontent] at hshows
    exact hshows.of_skeleton hskeleton

/-- An edge is drawn again on the last arrow that shows it. -/
theorem exists_arrow_renewedOn (htarget : target.IsDescribed) {e : Edge α} (he : e ∈ target.edges) :
    ∃ i ∈ renewedOn options elements target,
      i.element.id
          = ((shownArrow? (managed elements) e.id).map (·.id)).getD (derivedId "arrow" e.id)
        ∧ i.element.IsArrowOf e.id e.source e.target := by
  let p := penOn options elements target
  let known := (Board.read (managed elements)).identity
  have hcontent := content_placedOn options elements target
  obtain ⟨f, hf, hsame⟩ := exists_of_forall₂ (Diagram.forall₂_edges_of_content hcontent) e he
  have hid : f.id = e.id := congrArg (·.id) hsame
  have hknown : (Pen.edgeElements known f).arrow
      = ((shownArrow? (managed elements) e.id).map (·.id)).getD (derivedId "arrow" e.id) := by
    rw [Pen.edgeElements, Edge.elementIds, arrow_edge?_read, hid]
  -- both ends of the edge are nodes, so it is drawn
  obtain ⟨x, hx⟩ := Option.isSome_iff_exists.1
    (p.isSome_edgePicture? known (Diagram.ends_of_content hcontent htarget.ends) f hf)
  have hmem : x ∈ p.allEdges known (placedOn options elements target) :=
    List.mem_filterMap.2 ⟨f, hf, hx⟩
  obtain ⟨source, target', -, -, rfl⟩ := p.exists_of_edgePicture? hx
  have hskeleton := skeleton_refreshed (managedIds elements) (managed elements)
    (p.edgePicture f source target' (Pen.edgeElements known f)).arrow
  refine ⟨_, List.mem_map_of_mem (p.arrow_mem_draw known hmem), ?_, ?_⟩
  · rw [← hknown, ← p.id_arrow_edgePicture f source target']
    exact congrArg (·.id) hskeleton
  · have hshows := (p.isSound_edgePicture f source target' (Pen.edgeElements known f)).arrow
    simp only [Pen.edgePicture, hid, show f.source = e.source from congrArg (·.source) hsame,
      show f.target = e.target from congrArg (·.target) hsame] at hshows
    exact hshows.of_skeleton hskeleton

end Board

/-- Bringing a text onto a board keeps an element for every part of the text that the board shows:
for a node the first live container that shows it, for an edge the last live arrow that does and
whose ends can be told.  They come back under their ids and show the same part again.  A part that
the board does not show comes under the id made for it, so an element of that id stays too. -/
theorem reconcile_keepsShown (options : ReconcileOptions α) {text : String} {target : Diagram α}
    (htext : Diagram.parse text = .ok target) (items : List (Item α)) :
    ∃ out, reconcile options text items = .ok out
      ∧ (∀ id ∈ target.nodeIds, ∃ i ∈ out,
        i.element.id = ((shownContainer? (managed (items.map (·.element))) id).map (·.id)).getD
            (derivedId "node" id)
          ∧ i.element.IsContainerOf target.kind target.direction id)
      ∧ ∀ e ∈ target.edges, ∃ i ∈ out,
        i.element.id = ((shownArrow? (managed (items.map (·.element))) e.id).map (·.id)).getD
            (derivedId "arrow" e.id)
          ∧ i.element.IsArrowOf e.id e.source e.target := by
  have htarget := Diagram.isDescribed_of_parse htext
  refine ⟨_, reconcile_eq_ok.2 ⟨target, htext, rfl⟩, fun id hid => ?_, fun e he => ?_⟩
  · obtain ⟨i, hi, h⟩ := exists_container_renewedOn options (items.map (·.element)) hid
    exact ⟨i, List.mem_append_right _ hi, h⟩
  · obtain ⟨i, hi, h⟩ := exists_arrow_renewedOn options (items.map (·.element)) htarget he
    exact ⟨i, List.mem_append_right _ hi, h⟩

/-! ## Copies and loose arrows -/

/-- The box of a node. -/
def boxOfA (id : String) : Element Float :=
  { Element.bare id .rectangle with metadata := some { nodeId := some "A" } }

/-- An arrow that shows an edge and may name the nodes at its ends. -/
def arrowNaming (id edgeId : String) (source target : Option String) : Element Float :=
  { Element.bare id .arrow with
    metadata := some { edgeId := some edgeId, source := source, target := target } }

/-- A board with two boxes of a node, two arrows of the edge from it to itself, the second of which
names other nodes, and an arrow of another edge, both ends of which are loose. -/
def copiedBoard : List (Item Float) :=
  [boxOfA "a", boxOfA "b", arrowNaming "e" "A->A" (some "A") (some "A"),
    arrowNaming "f" "A->A" (some "X") (some "Y"), arrowNaming "g" "A->B" none none].map Item.drawn

/-- The first box and the last arrow of the edge stay. -/
theorem reconcile_keepsShown_copiedBoard : ∃ out,
    reconcile .standard "graph TD\nA --> A\nA --> B" copiedBoard = .ok out
      ∧ (∃ i ∈ out, i.element.id = "a" ∧ i.element.IsContainerOf .flowchart .down "A")
      ∧ ∃ i ∈ out, i.element.id = "f" ∧ i.element.IsArrowOf "A->A" "A" "A" := by
  obtain ⟨target, htext, hread⟩ : ∃ target : Diagram Float,
      Diagram.parse "graph TD\nA --> A\nA --> B" = .ok target
        ∧ decide ((target.kind, target.direction) = (.flowchart, .down) ∧ "A" ∈ target.nodeIds
          ∧ ("A->A", "A", "A") ∈ target.edges.map fun e => (e.id, e.source, e.target)) = true :=
    exists_ok_of_any (by decide +kernel)
  simp only [decide_eq_true_eq, Prod.mk.injEq] at hread
  obtain ⟨⟨hkind, hdirection⟩, hnode, hedge⟩ := hread
  obtain ⟨out, hout, hcontainers, harrows⟩ := reconcile_keepsShown .standard htext copiedBoard
  obtain ⟨e, he, heq⟩ := List.mem_map.1 hedge
  obtain ⟨hid, hsource, htarget⟩ : e.id = "A->A" ∧ e.source = "A" ∧ e.target = "A" := by
    simpa using heq
  have hbox : (shownContainer? (managed (copiedBoard.map (·.element))) "A").map (·.id)
      = some "a" := by decide +kernel
  have harrow : (shownArrow? (managed (copiedBoard.map (·.element))) "A->A").map (·.id)
      = some "f" := by decide +kernel
  have hfirst := hcontainers "A" hnode
  have hlast := harrows e he
  rw [hbox, hkind, hdirection] at hfirst
  rw [hid, hsource, htarget, harrow] at hlast
  exact ⟨out, hout, hfirst, hlast⟩

/-- The second box, the first arrow and the loose arrow are gone, although the text has their node and
their edges. -/
theorem not_keepsAllShown : ∃ (target : Diagram Float) (out : List (Item Float)),
    Diagram.parse "graph TD\nA --> A\nA --> B" = .ok target
      ∧ reconcile .standard "graph TD\nA --> A\nA --> B" copiedBoard = .ok out
      ∧ (copiedBoard.map (·.element.id)).Nodup
      ∧ (∃ old ∈ copiedBoard.map (·.element), old.isDeleted = false
        ∧ old.kind.isContainer = true
        ∧ (∃ id ∈ target.nodeIds, (old.metadata.bind (·.nodeId)) = some id)
        ∧ old.id ∉ out.map (·.element.id))
      ∧ ∀ name ∈ ["e", "g"], ∃ old ∈ copiedBoard.map (·.element), old.id = name
        ∧ old.isDeleted = false ∧ old.kind = .arrow
        ∧ (∃ id ∈ target.edges.map (·.id), (old.metadata.bind (·.edgeId)) = some id)
        ∧ old.id ∉ out.map (·.element.id) := by
  obtain ⟨target, htext, hread⟩ : ∃ target : Diagram Float,
      Diagram.parse "graph TD\nA --> A\nA --> B" = .ok target
        ∧ decide ("A" ∈ target.nodeIds ∧ "A->A" ∈ target.edges.map (·.id)
          ∧ "A->B" ∈ target.edges.map (·.id)) = true :=
    exists_ok_of_any (by decide +kernel)
  obtain ⟨out, hout, hshown⟩ : ∃ out,
      reconcile .standard "graph TD\nA --> A\nA --> B" copiedBoard = .ok out
        ∧ decide (∀ name ∈ ["b", "e", "g"], name ∉ out.map (·.element.id)) = true :=
    exists_ok_of_any (by decide +kernel)
  obtain ⟨hnode, hloop, hedge⟩ := of_decide_eq_true hread
  have hgone := of_decide_eq_true hshown
  have helements : copiedBoard.map (·.element)
      = [boxOfA "a", boxOfA "b", arrowNaming "e" "A->A" (some "A") (some "A"),
        arrowNaming "f" "A->A" (some "X") (some "Y"), arrowNaming "g" "A->B" none none] := rfl
  refine ⟨target, out, htext, hout, by decide, ⟨boxOfA "b", ?_, rfl, rfl, ⟨"A", hnode, rfl⟩,
    hgone "b" (by decide)⟩, fun name hname => ?_⟩
  · simp [helements]
  · simp only [List.mem_cons, List.not_mem_nil, or_false] at hname
    rcases hname with rfl | rfl
    · exact ⟨arrowNaming "e" "A->A" (some "A") (some "A"), by simp [helements], rfl, rfl, rfl,
        ⟨"A->A", hloop, rfl⟩, hgone "e" (by decide)⟩
    · exact ⟨arrowNaming "g" "A->B" none none, by simp [helements], rfl, rfl, rfl,
        ⟨"A->B", hedge, rfl⟩, hgone "g" (by decide)⟩

end DiagramBoard
