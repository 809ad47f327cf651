/-
DiagramBoard.Proofs.Board.Plain — boards without places and looks.

An element says what it is, what is written on it and what it shows.  The rest, where it is and how
it looks, makes no difference to the diagram that is read, but for two things: an arrow with a loose
end is joined to what is near, and the look of an arrow becomes the hints of its edge.  So the
elements may be taken without their looks as long as all arrows name their ends, and the edges
without their hints.

Main statements: a diagram without places and looks is read off elements without them
(`plain_diagram`), and the edges of a board are its arrows, each with the look of its own
(`edges_shownDiagram`).
-/
import DiagramBoard.Proofs.Board.Containers
import DiagramBoard.Proofs.Layout.Places

namespace DiagramBoard

open Board

variable {α : Type}

/-! ## Without places and looks -/

/-- An edge without its look and its way. -/
def Edge.plain (e : Edge α) : Edge α := { e with style := none, points := none }

/-- A diagram without places, looks and ways. -/
def Diagram.plain (d : Diagram α) : Diagram α :=
  { d with nodes := d.nodes.map Node.content, edges := d.edges.map Edge.plain }

theorem Diagram.hasNode_plain (d : Diagram α) (id : String) :
    d.plain.hasNode id = d.hasNode id := by
  rw [hasNode, plain, List.any_map]
  rfl

theorem Diagram.content_prunedNode (groups : List Group) (n : Node α) :
    (prunedNode groups n).content = prunedNode groups n.content := by
  unfold prunedNode Node.content
  simp only
  split <;> rfl

/-- Places and looks make no difference to what is dropped. -/
theorem Diagram.plain_prune (d : Diagram α) : d.prune.plain = d.plain.prune := by
  have hgroups : d.plain.prunedGroups = d.prunedGroups := by
    unfold prunedGroups
    simp only [hasNode_plain]
    rfl
  have hedges : d.plain.prunedEdges = d.prunedEdges.map Edge.plain := by
    unfold prunedEdges
    simp only [hasNode_plain]
    exact List.filter_map
  have hnodes : (d.nodes.map (prunedNode d.prunedGroups)).map Node.content
      = d.plain.nodes.map (prunedNode d.prunedGroups) := by
    rw [plain, List.map_map, List.map_map]
    exact List.map_congr_left fun n _ => content_prunedNode _ n
  rw [prune, prune, plain, hgroups, hedges, ← hnodes]
  rfl

variable [Scalar α]

/-- An element without its place and its looks. -/
def Element.plain (e : Element α) : Element α :=
  { Element.bare e.id e.kind with
    isDeleted := e.isDeleted
    groupIds := e.groupIds
    roundness := e.roundness
    startArrowhead := e.startArrowhead
    endArrowhead := e.endArrowhead
    text := e.text
    originalText := e.originalText
    containerId := e.containerId
    metadata := e.metadata }

/-- A container without places and looks. -/
def Container.plain (c : Container α) : Container α :=
  { c with element := c.element.plain, label := c.label.map Element.plain }

/-- Whether an arrow names both its ends. -/
def Element.namesEnds (e : Element α) : Bool :=
  (e.metadata.bind (·.source)).isSome && (e.metadata.bind (·.target)).isSome

/-! ## Reading -/

namespace Board

variable (xs : List (Element α)) (cs : List (Container α))

theorem live_map_plain : live (xs.map Element.plain) = (live xs).map Element.plain := by
  rw [live, List.filter_map]
  rfl

theorem labelOf?_map_plain (id : String) :
    labelOf? (xs.map Element.plain) id = (labelOf? xs id).map Element.plain := by
  rw [labelOf?, List.filter_map, List.getLast?_map]
  rfl

theorem labelText?_map_plain (label : Option (Element α)) :
    labelText? (label.map Element.plain) = labelText? label := by
  cases label <;> rfl

theorem lastText?_map_plain (tag : Tag) :
    lastText? tag (xs.map Element.plain) = lastText? tag xs := by
  rw [lastText?, List.filter_map, List.getLast?_map, Option.map_map]
  rfl

theorem segmentsOf?_map_plain (owner : String) :
    segmentsOf? (xs.map Element.plain) owner = segmentsOf? xs owner := by
  have howned : (xs.map Element.plain).filter (isOwnedBy owner)
      = (xs.filter (isOwnedBy owner)).map Element.plain := by
    rw [List.filter_map]
    rfl
  have hids : ∀ ys : List (Element α), ((ys.map Element.plain).filter isSegment).map (·.id)
      = (ys.filter isSegment).map (·.id) := by
    intro ys
    rw [List.filter_map, List.map_map]
    rfl
  unfold segmentsOf?
  rw [howned]
  cases hys : xs.filter (isOwnedBy owner) with
  | nil => rfl
  | cons y ys =>
    show some (⟨lastText? .classAttributes ((y :: ys).map Element.plain),
      lastText? .classMethods ((y :: ys).map Element.plain),
      (((y :: ys).map Element.plain).filter isSegment).map (·.id)⟩ : Segments) = _
    rw [lastText?_map_plain, lastText?_map_plain, hids]

theorem ofElement_plain (e : Element α) :
    Container.ofElement (xs.map Element.plain) e.plain = (Container.ofElement xs e).plain := by
  have hid : e.plain.shownNodeId = e.shownNodeId := rfl
  rw [Container.ofElement, hid, segmentsOf?_map_plain, labelOf?_map_plain]
  rfl

theorem containers_map_plain :
    containers (xs.map Element.plain) = (containers xs).map Container.plain := by
  have hmap : ((xs.map Element.plain).filter (·.kind.isContainer)).map
      (Container.ofElement (xs.map Element.plain))
      = ((xs.filter (·.kind.isContainer)).map (Container.ofElement xs)).map Container.plain := by
    rw [List.filter_map, List.map_map, List.map_map]
    exact List.map_congr_left fun e _ => ofElement_plain xs e
  rw [containers, hmap, eraseDupsBy_map Container.plain Container.nodeId]
  rfl

theorem sections_plain (c : Container α) : c.plain.sections = c.sections := by
  unfold Container.sections Container.plain
  cases c.segments <;> rfl

/-- A node apart from its place, its look and its group. -/
theorem content_node_plain (c : Container α) : c.plain.node.content = c.node.content := by
  have hlabel : (labelText? c.plain.label).getD c.plain.nodeId
      = (labelText? c.label).getD c.nodeId := by
    rw [Container.plain, labelText?_map_plain]
  have hshape : c.plain.element.shownShape = c.element.shownShape := rfl
  simp only [Container.node, Node.content, hlabel, hshape, sections_plain]
  rfl

theorem nodeOfElement?_map_plain (id : String) :
    nodeOfElement? (cs.map Container.plain) id = nodeOfElement? cs id := by
  rw [nodeOfElement?, List.filter_map, List.getLast?_map, Option.map_map]
  rfl

theorem memberships_map_plain :
    memberships (xs.map Element.plain) (cs.map Container.plain) = memberships xs cs := by
  rw [memberships, List.flatMap_map]
  refine List.flatMap_congr fun e _ => ?_
  have hnode : nodeOfElement? (cs.map Container.plain) e.plain.id = nodeOfElement? cs e.id :=
    nodeOfElement?_map_plain cs e.id
  rw [hnode]
  rfl

theorem showsSequence_plain (e : Element α) :
    showsSequence (cs.map Container.plain) e.plain = showsSequence cs e := by
  have hany : ∀ p : String, (cs.map Container.plain).any (·.nodeId = p)
      = cs.any (·.nodeId = p) := by
    intro p
    rw [List.any_map]
    rfl
  unfold showsSequence lifelineOf?
  simp only [hany]
  rfl

theorem heading?_map_plain : heading? (xs.map Element.plain) = heading? xs := by
  rw [heading?, List.filter_map, List.findSome?_map]
  rfl

theorem shownKind_map_plain :
    shownKind (xs.map Element.plain) (cs.map Container.plain) = shownKind xs cs := by
  have hsequence : (xs.map Element.plain).any (showsSequence (cs.map Container.plain))
      = xs.any (showsSequence cs) := by
    rw [List.any_map]
    exact congrArg xs.any (funext (showsSequence_plain cs))
  have hclasses : (cs.map Container.plain).any (·.sections.isSome)
      = cs.any (·.sections.isSome) := by
    rw [List.any_map]
    exact congrArg cs.any (funext fun c => by rw [Function.comp_apply, sections_plain])
  rw [shownKind, hsequence, hclasses, namedKind, heading?_map_plain]
  rfl

/-! ## Arrows that name their ends -/

/-- The edge that an arrow shows which names its ends. -/
def namedEdge (e : Element α) : Edge α :=
  let source := (e.metadata.bind (·.source)).getD ""
  let target := (e.metadata.bind (·.target)).getD ""
  { id := (e.metadata.bind fun m => m.edgeId.or m.id).getD (Edge.pairId source target)
    source := source
    target := target
    label := labelText? (labelOf? xs e.id)
    startHead := .ofCanvasName e.startArrowhead
    endHead := .ofCanvasName e.endArrowhead
    style := e.shownHints.nonEmpty? }

variable {xs}

/-- Where all arrows name their ends, the edges of a board are its arrows. -/
theorem edges_connectors (hends : ∀ e ∈ xs, e.kind = .arrow → e.namesEnds = true)
    (kind : DiagramKind) : (connectors kind xs cs).map (·.edge)
      = (xs.filter (·.kind = .arrow)).map (namedEdge xs) := by
  have hof : ∀ e ∈ xs.filter (·.kind = .arrow),
      (connector? kind xs cs e).map (·.edge) = some (namedEdge xs e) := by
    intro e he
    obtain ⟨hmem, hkind⟩ := List.mem_filter.1 he
    have hnames := hends e hmem (of_decide_eq_true hkind)
    rw [Element.namesEnds, Bool.and_eq_true] at hnames
    obtain ⟨source, hsource⟩ := Option.isSome_iff_exists.1 hnames.1
    obtain ⟨target, htarget⟩ := Option.isSome_iff_exists.1 hnames.2
    simp only [connector?, hsource, htarget, end?, fixedEnd?, Option.some_or,
      Option.bind_eq_bind, Option.bind_some, Option.pure_def, Option.map_some, Connector.edge,
      Connector.edgeId, namedEdge, Option.getD_some]
  rw [connectors, List.map_filterMap, List.filterMap_congr hof]
  exact congrFun List.filterMap_eq_map _

/-- The edges that are read off arrows without looks are without looks. -/
theorem plain_namedEdge (e : Element α) :
    (namedEdge (xs.map Element.plain) e.plain).plain = (namedEdge xs e).plain := by
  have hlabel : labelText? (labelOf? (xs.map Element.plain) e.plain.id)
      = labelText? (labelOf? xs e.id) := by
    rw [labelOf?_map_plain, labelText?_map_plain]
    rfl
  simp only [namedEdge, Edge.plain, hlabel]
  rfl

/-- The edges of the diagram that a board shows are its arrows, before anything is dropped. -/
theorem edges_shownDiagram (hends : ∀ e ∈ xs, e.kind = .arrow → e.namesEnds = true) :
    (shownDiagram xs cs).edges = (xs.filter (·.kind = .arrow)).map (namedEdge xs) :=
  edges_connectors cs hends _

theorem plain_shownDiagram (hends : ∀ e ∈ xs, e.kind = .arrow → e.namesEnds = true) :
    (shownDiagram (xs.map Element.plain) (cs.map Container.plain)).plain
      = (shownDiagram xs cs).plain := by
  have hends' : ∀ e ∈ xs.map Element.plain, e.kind = .arrow → e.namesEnds = true := by
    intro y hy
    obtain ⟨e, he, rfl⟩ := List.mem_map.1 hy
    exact hends e he
  have hedges : (shownDiagram (xs.map Element.plain) (cs.map Container.plain)).edges.map Edge.plain
      = (shownDiagram xs cs).edges.map Edge.plain := by
    rw [edges_shownDiagram _ hends, edges_shownDiagram _ hends', List.filter_map, List.map_map,
      List.map_map, List.map_map]
    exact List.map_congr_left fun e _ => plain_namedEdge e
  have hnodes :
      (shownDiagram (xs.map Element.plain) (cs.map Container.plain)).nodes.map Node.content
        = (shownDiagram xs cs).nodes.map Node.content := by
    simp only [shownDiagram, memberships_map_plain, List.map_map]
    refine List.map_congr_left fun c _ => ?_
    exact congrArg (fun n : Node α => { n with
      group := groupOf? (groupsOf (memberships xs cs)) c.nodeId }) (content_node_plain c)
  rw [Diagram.plain, hedges, hnodes]
  simp only [shownDiagram, shownKind_map_plain, memberships_map_plain, namedDirection,
    heading?_map_plain]
  rfl

/-- Where all arrows name their ends, places and looks make no difference to the diagram that is
read, places and looks apart. -/
theorem plain_diagram (hends : ∀ e ∈ xs, e.kind = .arrow → e.namesEnds = true) :
    (diagram (xs.map Element.plain)).plain = (diagram xs).plain := by
  have hlive : ∀ e ∈ live xs, e.kind = .arrow → e.namesEnds = true := fun e he =>
    hends e (List.mem_filter.1 he).1
  rw [diagram, diagram, read, read, live_map_plain, containers_map_plain, Diagram.plain_prune,
    Diagram.plain_prune, plain_shownDiagram _ hlive]

end Board

end DiagramBoard
