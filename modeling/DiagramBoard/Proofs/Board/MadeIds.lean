/-
DiagramBoard.Proofs.Board.MadeIds — which shapes of a board without ids are nodes.

A container that does not say which node it shows gets an id that is made of the beginning of its
own.  The ids of different containers can begin alike; then the first of them is the node, and the
others and the arrows at them are passed over.  Apart from that every container is a node, and every
arrow from one to another is an edge.

Main statements: the standing shapes of a board and the arrows between them are in its diagram
(`showsShapes_diagram`), and they are all shapes if no two made ids are equal (`standing_of_nodup`)
but not otherwise (`not_showsShapes`).
-/
import DiagramBoard.Proofs.Board.Coherent

namespace DiagramBoard

/-- Leaving out repetitions leaves the others in their order. -/
theorem eraseDupsBy_sublist {β : Type} (r : β → β → Bool) (xs : List β) :
    (xs.eraseDupsBy r).Sublist xs := by
  match xs with
  | [] => exact List.Sublist.slnil
  | x :: xs =>
    rw [List.eraseDupsBy_cons]
    exact ((eraseDupsBy_sublist r _).trans List.filter_sublist).cons_cons x
termination_by xs.length
decreasing_by
  exact Nat.lt_succ_of_le (List.length_filter_le _ _)

/-- A function that finds less finds part of what another one does, in the same order. -/
theorem filterMap_sublist {β γ : Type} {f g : β → Option γ} {xs : List β}
    (h : ∀ x ∈ xs, ∀ y, g x = some y → f x = some y) :
    (xs.filterMap g).Sublist (xs.filterMap f) := by
  induction xs with
  | nil => exact List.Sublist.slnil
  | cons x xs ih =>
    have hrest := ih fun z hz => h z (List.mem_cons_of_mem _ hz)
    cases hg : g x with
    | none =>
      rw [List.filterMap_cons_none hg]
      exact hrest.trans (List.Sublist.filterMap f (List.sublist_cons_self x xs))
    | some y =>
      rw [List.filterMap_cons_some hg, List.filterMap_cons_some (h x List.mem_cons_self y hg)]
      exact hrest.cons_cons y

namespace Board

variable {α : Type} {elements : List (Element α)}

/-! ## Shapes -/

/-- The live containers of a board. -/
def shapes (elements : List (Element α)) : List (Element α) :=
  (live elements).filter (·.kind.isContainer)

/-- The shapes whose nodes no earlier shape shows. -/
def standing (elements : List (Element α)) : List (Element α) :=
  (shapes elements).eraseDupsBy fun e f => e.shownNodeId == f.shownNodeId

theorem standing_sublist (elements : List (Element α)) :
    (standing elements).Sublist (shapes elements) :=
  eraseDupsBy_sublist _ _

theorem containers_live (elements : List (Element α)) :
    containers (live elements)
      = (standing elements).map (Container.ofElement (live elements)) :=
  eraseDupsBy_map (Container.ofElement (live elements)) (·.nodeId) _

/-- The shape that an end of an arrow is bound to. -/
def boundTo? (shapes : List (Element α)) (binding : Option (Binding α)) : Option (Element α) :=
  binding.bind fun b => shapes.find? (·.id = b.elementId)

theorem nodup_id_standing (hids : (elements.map (·.id)).Nodup) :
    ((standing elements).map (·.id)).Nodup := by
  have hsublist : (standing elements).Sublist elements :=
    (standing_sublist elements).trans (List.filter_sublist.trans List.filter_sublist)
  exact (hsublist.map _).nodup hids

/-- Where ids are distinct, an end is at the node of the shape that it is bound to. -/
theorem nodeOfElement?_eq (hids : (elements.map (·.id)).Nodup) (binding : Option (Binding α)) :
    (binding.bind fun b => nodeOfElement? (containers (live elements)) b.elementId)
      = (boundTo? (standing elements) binding).map (·.shownNodeId) := by
  cases binding with
  | none => rfl
  | some b =>
    have hlast := getLast?_filter_of_nodup Element.id (nodup_id_standing hids) b.elementId
    show nodeOfElement? _ _ = ((standing elements).find? (·.id = b.elementId)).map _
    rw [← hlast, nodeOfElement?, containers_live, List.filter_map, List.getLast?_map,
      Option.map_map]
    rfl

/-! ## Arrows -/

/-- The live arrows of a board without metadata. -/
def plainArrows (elements : List (Element α)) : List (Element α) :=
  ((live elements).filter (·.kind = .arrow)).filter (·.metadata.isNone)

variable [Scalar α]

/-- The edge of an arrow that is bound to two of some shapes. -/
def edgeBetween? (elements shapes : List (Element α)) (e : Element α) : Option (Edge α) := do
  let source ← boundTo? shapes e.startBinding
  let target ← boundTo? shapes e.endBinding
  let connector : Connector α :=
    { source := source.shownNodeId, target := target.shownNodeId, element := e
      label := labelOf? (live elements) e.id }
  return connector.edge

theorem connector?_of_edgeBetween? (hids : (elements.map (·.id)).Nodup) (kind : DiagramKind)
    {e : Element α} (he : e ∈ plainArrows elements) {edge : Edge α}
    (h : edgeBetween? elements (standing elements) e = some edge) :
    (connector? kind (live elements) (containers (live elements)) e).map (·.edge) = some edge := by
  have hplain : e.metadata = none := by
    simpa using (List.mem_filter.1 he).2
  obtain ⟨source, hsource, h⟩ := Option.bind_eq_some_iff.1 h
  obtain ⟨target, htarget, h⟩ := Option.bind_eq_some_iff.1 h
  have hstart := nodeOfElement?_eq hids e.startBinding
  have hend := nodeOfElement?_eq hids e.endBinding
  rw [hsource] at hstart
  rw [htarget] at hend
  rw [← h]
  simp [connector?, end?, fixedEnd?, hplain, hstart, hend]

/-- An end of an edge that is drawn between standing shapes is a node. -/
theorem hasNode_of_edgeBetween? {e : Element α} {edge : Edge α}
    (h : edgeBetween? elements (standing elements) e = some edge) :
    let d := shownDiagram (live elements) (containers (live elements))
    (d.hasNode edge.source && d.hasNode edge.target) = true := by
  intro d
  have hnode : ∀ {binding : Option (Binding α)} {shape : Element α},
      boundTo? (standing elements) binding = some shape → d.hasNode shape.shownNodeId = true := by
    intro binding shape hbound
    obtain ⟨b, -, hfind⟩ := Option.bind_eq_some_iff.1 hbound
    rw [Diagram.hasNode_iff, nodeIds_shownDiagram, containers_live, List.map_map]
    exact List.mem_map_of_mem (List.mem_of_find?_eq_some hfind)
  obtain ⟨source, hsource, h⟩ := Option.bind_eq_some_iff.1 h
  obtain ⟨target, htarget, h⟩ := Option.bind_eq_some_iff.1 h
  obtain rfl := Option.some.inj h
  rw [Bool.and_eq_true]
  exact ⟨hnode hsource, hnode htarget⟩

/-! ## The diagram -/

/-- Whether a diagram has one node for each of some shapes, in the order of the board, and an edge
for each arrow without metadata that is bound to two of them. -/
structure ShowsShapes (elements shapes : List (Element α)) (d : Diagram α) : Prop where
  nodes : d.nodes.map (fun n => (n.id, n.box)) = shapes.map fun e => (e.shownNodeId, some e.box)
  edges : ((plainArrows elements).filterMap (edgeBetween? elements shapes)).Sublist d.edges

/-- The diagram of a board shows its standing shapes. -/
theorem showsShapes_standing (hids : (elements.map (·.id)).Nodup) :
    ShowsShapes elements (standing elements) (diagram elements) where
  nodes := by
    rw [diagram_eq, shownDiagram, List.map_map, containers_live, List.map_map]
    rfl
  edges := by
    let alive := live elements
    let kind := shownKind alive (containers alive)
    let drawn := (plainArrows elements).filterMap (edgeBetween? elements (standing elements))
    have harrows : (plainArrows elements).Sublist (alive.filter (·.kind = .arrow)) :=
      List.filter_sublist
    have hshown : drawn.Sublist (shownDiagram alive (containers alive)).edges := by
      have hedges : (shownDiagram alive (containers alive)).edges
          = (alive.filter (·.kind = .arrow)).filterMap fun e =>
            (connector? kind alive (containers alive) e).map (·.edge) := by
        rw [shownDiagram, connectors, List.map_filterMap]
      rw [hedges]
      refine List.Sublist.trans ?_ (harrows.filterMap _)
      exact filterMap_sublist fun e he edge => connector?_of_edgeBetween? hids kind he
    have hkept : drawn.filter (fun e =>
        (shownDiagram alive (containers alive)).hasNode e.source
          && (shownDiagram alive (containers alive)).hasNode e.target) = drawn := by
      refine List.filter_eq_self.2 fun edge hedge => ?_
      obtain ⟨e, -, he⟩ := List.mem_filterMap.1 hedge
      exact hasNode_of_edgeBetween? he
    rw [diagram_eq]
    show drawn.Sublist (shownDiagram alive (containers alive)).prunedEdges
    rw [← hkept]
    exact hshown.filter _

omit [Scalar α] in
/-- Every shape stands if no two of them show the same node. -/
theorem standing_of_nodup (h : ((shapes elements).map (·.shownNodeId)).Nodup) :
    standing elements = shapes elements :=
  eraseDupsBy_of_nodup h

/-- A board whose containers say no ids shows the shapes whose made ids no earlier one has, and the
arrows between them.  If all made ids are different, these are all shapes. -/
theorem showsShapes_diagram (hids : (elements.map (·.id)).Nodup)
    (hplain : ∀ e ∈ elements, e.kind.isContainer = true →
      ∀ m ∈ e.metadata, m.nodeId = none ∧ m.id = none) :
    (∀ e ∈ shapes elements, e.shownNodeId = Element.madeNodeId e.id)
      ∧ ShowsShapes elements (standing elements) (diagram elements)
      ∧ (((shapes elements).map fun e => Element.madeNodeId e.id).Nodup →
        standing elements = shapes elements) := by
  have hmade : ∀ e ∈ shapes elements, e.shownNodeId = Element.madeNodeId e.id := by
    intro e he
    obtain ⟨he, hkind⟩ := List.mem_filter.1 he
    rw [Element.shownNodeId]
    cases hmetadata : e.metadata with
    | none => rfl
    | some m =>
      obtain ⟨hnode, hid⟩ := hplain e (List.mem_filter.1 he).1 hkind m hmetadata
      simp [hnode, hid]
  refine ⟨hmade, showsShapes_standing hids, fun hdistinct => standing_of_nodup ?_⟩
  rwa [List.map_congr_left hmade]

/-- Three containers, of which two have ids that begin alike, with an arrow from the third one to
the first and an arrow from the first one to the second. -/
def twins : List (Element Float) :=
  [{ Element.bare "container-1" .rectangle with x := 100 },
    { Element.bare "container-2" .diamond with x := 300 },
    { Element.bare "door" .ellipse with x := 500 },
    { Element.bare "in" .arrow with
      startBinding := some (.onto "door"), endBinding := some (.onto "container-1") },
    { Element.bare "across" .arrow with
      startBinding := some (.onto "container-1"), endBinding := some (.onto "container-2") }]

theorem showsShapes_diagram_twins :
    (twins.map (·.id)).Nodup ∧ (∀ e ∈ twins, e.metadata = none)
      ∧ ShowsShapes twins (standing twins) (diagram twins)
      ∧ (standing twins).map (fun e => (e.id, e.shownNodeId))
        = [("container-1", "n_containe"), ("door", "n_door")] := by
  have hids : (twins.map (·.id)).Nodup := by decide
  have hplain : ∀ e ∈ twins, e.metadata = none := by decide
  obtain ⟨-, hshows, -⟩ := showsShapes_diagram hids fun e he _ m hm => by
    rw [hplain e he] at hm
    exact absurd hm (by simp)
  exact ⟨hids, hplain, hshows, by decide +kernel⟩

/-- The second container is no node, and the arrow at it is no edge. -/
theorem not_showsShapes :
    (twins.map (·.id)).Nodup ∧ (∀ e ∈ twins, e.metadata = none)
      ∧ (shapes twins).map (·.id) = ["container-1", "container-2", "door"]
      ∧ (diagram twins).nodeIds = ["n_containe", "n_door"]
      ∧ (plainArrows twins).map (·.id) = ["in", "across"]
      ∧ (diagram twins).edges.map (fun e => (e.source, e.target)) = [("n_door", "n_containe")]
      ∧ ¬ ShowsShapes twins (shapes twins) (diagram twins) := by
  have hshapes : (shapes twins).map (·.id) = ["container-1", "container-2", "door"] := by
    decide +kernel
  have hnodes : (diagram twins).nodeIds = ["n_containe", "n_door"] := by decide +kernel
  refine ⟨by decide, by decide, hshapes, hnodes, by decide +kernel, by decide +kernel, ?_⟩
  intro hshows
  have hlength := congrArg List.length hshows.nodes
  rw [List.length_map, List.length_map] at hlength
  have hshown : (diagram twins).nodes.length = 2 := by
    rw [← List.length_map, ← Diagram.nodeIds, hnodes]
    rfl
  have hall : (shapes twins).length = 3 := by
    rw [← List.length_map, hshapes]
    rfl
  omega

end Board

end DiagramBoard
