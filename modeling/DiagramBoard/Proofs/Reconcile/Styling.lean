/-
DiagramBoard.Proofs.Reconcile.Styling — which of the looks that somebody gave an element stay.

There are two ways for looks to stay.  A redrawn element takes colours, fills, its font, its rotation
and its lines over from the element that was there.  Beside that, reading a board turns the looks of
a node into hints, which are drawn again; this is how the font size of a node's label stays.  Neither
way leads to the font size of any other text.  Lifelines and the lines across a class are locked
whenever they are drawn, so that nobody can unlock them for long.

Main statements: an element keeps its styling if and only if it keeps its font size, its lock is not
that of a fixture, and no arrow takes its place (`reconcile_keepsStyling_iff`); the label of a node
keeps its font size and that of an edge is reset to the size of the board (`reconcile_labelSizes`).
-/
import DiagramBoard.Proofs.Board.OwnElements
import DiagramBoard.Proofs.Reconcile.Fields
import DiagramBoard.Proofs.Reconcile.Kept

namespace DiagramBoard

open Board

/-! ## Looks that stay -/

/-- Whether a field that is set has the same value later. -/
def IsKept {β : Type} (old new : Option β) : Prop := ∀ v ∈ old, new = some v

theorem isKept_or {β : Type} (old fresh : Option β) : IsKept old (old.or fresh) := by
  intro v hv
  rw [Option.mem_def.1 hv, Option.some_or]

variable {α : Type}

namespace Element

/-- Whether an element keeps its colours, its font and its rotation. -/
structure KeepsLooks (old new : Element α) : Prop where
  strokeColor : IsKept old.strokeColor new.strokeColor
  backgroundColor : IsKept old.backgroundColor new.backgroundColor
  fillStyle : IsKept old.fillStyle new.fillStyle
  roughness : IsKept old.roughness new.roughness
  opacity : IsKept old.opacity new.opacity
  fontFamily : IsKept old.fontFamily new.fontFamily
  angle : new.angle = old.angle

/-- Whether an element keeps its lines. -/
structure KeepsLine (old new : Element α) : Prop where
  strokeWidth : IsKept old.strokeWidth new.strokeWidth
  strokeStyle : IsKept old.strokeStyle new.strokeStyle

/-- Whether an element keeps all that somebody has styled.  The line of an arrow is not styling: it
says what the text says. -/
structure KeepsStyling (old new : Element α) : Prop extends KeepsLooks old new where
  fontSize : IsKept old.fontSize new.fontSize
  locked : new.locked = old.locked
  line : old.kind ≠ .arrow → old.KeepsLine new

/-- Whether an element is a line that is drawn locked: a lifeline or a line across a class. -/
def isFixture (e : Element α) : Bool :=
  e.tag? = some .lifeline || e.tag? = some .classSeparator

/-- What the looks of an element are that was there before and was drawn anew. -/
structure IsRestyledFrom (old new : Element α) : Prop extends KeepsLooks old new where
  locked : new.locked = (old.locked || new.isFixture)
  line : new.kind ≠ .arrow → old.KeepsLine new

/-- A redrawn element keeps its styling if and only if it keeps its font size, it was locked if it is
a fixture, and it keeps its line if an arrow takes its place. -/
theorem IsRestyledFrom.keepsStyling_iff {old new : Element α} (h : old.IsRestyledFrom new) :
    old.KeepsStyling new ↔ IsKept old.fontSize new.fontSize
      ∧ (new.isFixture = true → old.locked = true)
      ∧ (old.kind ≠ .arrow → new.kind = .arrow → old.KeepsLine new) := by
  constructor
  · intro hkeeps
    refine ⟨hkeeps.fontSize, fun hfixture => ?_, fun hkind _ => hkeeps.line hkind⟩
    rw [← hkeeps.locked, h.locked, hfixture, Bool.or_true]
  · rintro ⟨hsize, hfixture, harrow⟩
    refine ⟨h.toKeepsLooks, hsize, ?_, fun hkind => ?_⟩
    · rw [h.locked]
      cases hf : new.isFixture with
      | true => rw [hfixture hf, Bool.true_or]
      | false => rw [Bool.or_false]
    · by_cases hnew : new.kind = .arrow
      · exact harrow hkind hnew
      · exact h.line hnew

variable [Scalar α]

theorem isFixture_of_skeleton {e e' : Element α} (h : e'.skeleton = e.skeleton) :
    e'.isFixture = e.isFixture := by
  rw [isFixture, isFixture, tag?_of_skeleton h]

/-- An element that is drawn anew keeps its looks, and its line unless it is an arrow. -/
theorem isRestyledFrom_refresh (managed : List String) (old : Element α) {fresh : Element α}
    (h : fresh.locked = fresh.isFixture) : old.IsRestyledFrom (refresh managed old fresh) := by
  have hfixture := isFixture_of_skeleton (skeleton_refresh managed old fresh)
  obtain ⟨version, nonce, heq⟩ := refresh_eq managed old fresh
  rw [heq] at hfixture ⊢
  refine ⟨⟨isKept_or _ _, isKept_or _ _, isKept_or _ _, isKept_or _ _, isKept_or _ _,
    isKept_or _ _, rfl⟩, ?_, fun hkind => ?_⟩
  · rw [hfixture, ← h]
    rfl
  · have hfresh : fresh.kind ≠ .arrow := hkind
    constructor
    · simp only [keep, hfresh, decide_false, Bool.false_eq_true, ↓reduceIte]
      exact isKept_or _ _
    · simp only [keep, hfresh, decide_false, Bool.false_eq_true, ↓reduceIte]
      exact isKept_or _ _

end Element

/-! ## Drawings -/

namespace Pen

variable [Scalar α] (p : Pen α)

theorem locked_of_mem_nodeDrawing (n : Node α) (ids : NodeElements) :
    ∀ e ∈ (p.nodeDrawing n ids).elements, e.locked = e.isFixture := by
  refine p.forall_mem_nodeDrawing (fun _ => ⟨rfl, rfl⟩) (fun _ _ _ _ => rfl)
    (fun _ _ => ⟨rfl, rfl⟩) (fun _ _ _ _ _ _ => rfl) (fun _ tag htag _ _ _ _ => ?_)
  simp only [List.mem_cons, List.not_mem_nil, or_false] at htag
  rcases htag with rfl | rfl <;> rfl

theorem locked_of_mem_edgeDrawing (e : Edge α) (source target : Element α) (ids : EdgeElements) :
    ∀ x ∈ (p.edgeDrawing e source target ids).elements, x.locked = x.isFixture := by
  refine p.forall_mem_edgeDrawing (fun bound => ?_) (fun _ _ _ => rfl)
  unfold Element.isFixture Element.tag? arrow
  cases (wayOf e source target).bindings with
  | none => rfl
  | some b => rfl

/-- Fixtures are drawn locked, and nothing else is. -/
theorem locked_of_mem_draw (known : Identity) (d : Diagram α) :
    ∀ e ∈ p.draw known d, e.locked = e.isFixture := by
  refine p.forall_mem_draw (fun e arrows h => ?_) known d
    (fun n _ => p.locked_of_mem_nodeDrawing n) (fun e _ => p.locked_of_mem_edgeDrawing e)
  unfold Element.withArrows
  split
  · exact h
  · exact h

variable (known : Identity) {d : Diagram α}

/-- The label of every node is drawn in the size that the hints of the node say. -/
theorem exists_nodeLabel_draw {n : Node α} (hn : n ∈ d.nodes) :
    ∃ l ∈ p.draw known d, l.id = labelId n (nodeElements known n)
      ∧ l.fontSize = some (p.fontSize n.style) := by
  let x := p.nodePicture n (nodeElements known n)
  have hskeleton := Element.skeleton_withArrows (p.allArrows known d) x.label
  refine ⟨x.label.withArrows (p.allArrows known d), ?_, ?_, ?_⟩
  · exact p.mem_draw_of_node known hn (List.mem_cons_of_mem _ List.mem_cons_self)
  · rw [Element.withArrows_id]
    exact p.id_label_nodePicture n _
  · exact (congrArg (·.fontSize) hskeleton).trans (fontSize_label_nodePicture p n _)

/-- The label of every edge between nodes is drawn in the size that the hints of the edge say. -/
theorem exists_edgeLabel_draw {e : Edge α} (he : e ∈ d.edges) (hlabel : e.label.isSome = true)
    (hends : ∀ e ∈ d.edges, e.source ∈ d.nodeIds ∧ e.target ∈ d.nodeIds) :
    ∃ l ∈ p.draw known d, l.id = (edgeElements known e).text.getD (derivedId "text" e.id)
      ∧ l.fontSize = some (p.fontSize e.style) := by
  obtain ⟨x, hx⟩ := Option.isSome_iff_exists.1 (p.isSome_edgePicture? known hends e he)
  have hmem : x ∈ p.allEdges known d := List.mem_filterMap.2 ⟨e, he, hx⟩
  obtain ⟨l, hl, hid, hsize⟩ : ∃ l ∈ x.label,
      l.id = (edgeElements known e).text.getD (derivedId "text" e.id)
        ∧ l.fontSize = some (p.fontSize e.style) := by
    obtain ⟨source, target, -, -, rfl⟩ := p.exists_of_edgePicture? hx
    obtain ⟨text, htext⟩ := Option.isSome_iff_exists.1 hlabel
    unfold edgePicture edgeDrawing
    rw [htext]
    exact ⟨_, rfl, rfl, rfl⟩
  have hpart : l ∈ x.elements := List.mem_cons_of_mem _ (Option.mem_toList.2 hl)
  exact ⟨l, p.mem_draw_of_edge known hmem hpart, hid, hsize⟩

end Pen

/-! ## Boards that are brought up to date -/

section Reconcile

variable [Scalar α] {options : ReconcileOptions α} {text : String} {items out : List (Item α)}
  (h : reconcile options text items = .ok out) (hids : (items.map (·.element.id)).Nodup)
  {old new : Element α} (hold : old ∈ items.map (·.element)) (hlive : old.isDeleted = false)
  (hmanaged : Board.isManaged (items.map (·.element)) old = true)
  (hnew : new ∈ out.map (·.element)) (hid : new.id = old.id)
include h hids hold hlive hmanaged hnew hid

/-- A managed element that is on the board before and after a text is brought in keeps its colours,
its font, its rotation and its lock, and its line unless it comes back as an arrow. -/
theorem reconcile_restyled : old.IsRestyledFrom new := by
  obtain ⟨target, -, rfl⟩ := reconcile_eq_ok.1 h
  obtain ⟨e, he, rfl⟩ := exists_refresh_of_update hids hold hlive hmanaged hnew hid
  exact Element.isRestyledFrom_refresh _ old (Pen.locked_of_mem_draw _ _ _ e he)

/-- A managed element keeps its styling if and only if it keeps its font size, it was locked if it is
a fixture, and it keeps its line if an arrow takes its place. -/
theorem reconcile_keepsStyling_iff : old.KeepsStyling new ↔ IsKept old.fontSize new.fontSize
    ∧ (new.isFixture = true → old.locked = true)
    ∧ (old.kind ≠ .arrow → new.kind = .arrow → old.KeepsLine new) :=
  (reconcile_restyled h hids hold hlive hmanaged hnew hid).keepsStyling_iff

end Reconcile

/-- No text asks for a font size. -/
theorem Edge.IsPlain.fontSize [Scalar α] {e : Edge α} (h : e.IsPlain) :
    e.style.bind (·.fontSize) = none := by
  have hstyle := h.style
  simp only [List.mem_cons, List.not_mem_nil, or_false] at hstyle
  rcases hstyle with hs | hs | hs <;> rw [hs] <;> rfl

namespace Board

variable [Scalar α] {options : ReconcileOptions α} {elements : List (Element α)}
  {target : Diagram α} {old l : Element α}

/-- What is drawn is on the board afterwards, in the size that it was drawn in. -/
theorem fontSize_renewedOn {x : Element α} (hx : x ∈ drawnOn options elements target) :
    ∃ i ∈ renewedOn options elements target,
      i.element.id = x.id ∧ i.element.fontSize = x.fontSize := by
  have hskeleton := skeleton_refreshed (managedIds elements) (managed elements) x
  exact ⟨_, List.mem_map_of_mem hx, congrArg (·.id) hskeleton, congrArg (·.fontSize) hskeleton⟩

variable (options) in
/-- The font size of the label of a node goes into the hints of the node, unless it is the usual one,
and from there into the next drawing. -/
theorem exists_nodeLabel_renewedOn (htarget : target.IsDescribed) {id : String}
    (hid : id ∈ target.nodeIds) (hold : shownContainer? (managed elements) id = some old)
    (hl : labelOf? (live (managed elements)) old.id = some l) :
    ∃ i ∈ renewedOn options elements target, i.element.id = l.id
      ∧ i.element.fontSize = some ((unusual (BoardStyle.standard : BoardStyle α).fontSize
        l.fontSize).getD (styleOn options elements).fontSize) := by
  rw [← Diagram.nodeIds_of_content (content_placedOn options elements target)] at hid
  obtain ⟨n, hn, rfl⟩ := List.mem_map.1 hid
  obtain ⟨t, ht, hstyle, -, hsame⟩ := Diagram.exists_of_mem_placeAfter _ _ hn
  obtain ⟨x, hx, hxid, hsize⟩ := (penOn options elements target).exists_nodeLabel_draw
    (Board.read (managed elements)).identity hn
  obtain ⟨i, hi, hiid, hisize⟩ := fontSize_renewedOn hx
  -- the label that reading finds, and its size
  have hlabel : Pen.labelId n (Pen.nodeElements (Board.read (managed elements)).identity n)
      = l.id := by
    rw [Pen.labelId, Pen.nodeElements, Node.elementIds, Option.getD_some, node?_read, hold]
    simp only [Option.map_some, Option.bind_some, Container.elements, Container.ofElement, hl,
      Option.getD_some]
  have hhint : n.style.bind (·.fontSize)
      = unusual (BoardStyle.standard : BoardStyle α).fontSize l.fontSize := by
    obtain ⟨group, hnode⟩ := node?_diagram_read (managed elements) n.id
    rw [hstyle, (htarget.nodes t ht).style, Option.none_or, ← hsame, hnode, hold, Option.map_some,
      Option.bind_some]
    refine (StyleHints.bind_nonEmpty? rfl _).trans ?_
    simp only [Container.hints, Container.ofElement, hl, Option.bind_some]
  refine ⟨i, hi, hiid.trans (hxid.trans hlabel), hisize.trans (hsize.trans ?_)⟩
  rw [Pen.fontSize, Pen.choose, hhint]
  rfl

/-- An arrow that shows an edge is entered in the table together with its label. -/
theorem text_edgeElements {e : Edge α} (hold : shownArrow? (managed elements) e.id = some old)
    (hl : labelOf? (live (managed elements)) old.id = some l) :
    (Pen.edgeElements (Board.read (managed elements)).identity e).text = some l.id := by
  obtain ⟨c, hc, rfl⟩ := Option.map_eq_some_iff.1 hold
  obtain ⟨hconnector, -⟩ := List.mem_filter.1 (List.mem_of_getLast? hc)
  obtain ⟨a, -, ha⟩ := List.mem_filterMap.1 hconnector
  obtain ⟨ha, hlabel⟩ := connector?_eq_some ha
  rw [Pen.edgeElements, Edge.elementIds]
  simp only [Board.read]
  rw [edge?_shownIdentity, hc, Option.map_some, Option.bind_some, Connector.elements, hlabel, ← ha,
    hl]
  rfl

variable (options) in
/-- The font size of the label of an edge goes nowhere: the label is drawn in the size of the board. -/
theorem exists_edgeLabel_renewedOn (htarget : target.IsDescribed) {e : Edge α}
    (he : e ∈ target.edges) (hlabel : e.label.isSome = true)
    (hold : shownArrow? (managed elements) e.id = some old)
    (hl : labelOf? (live (managed elements)) old.id = some l) :
    ∃ i ∈ renewedOn options elements target, i.element.id = l.id
      ∧ i.element.fontSize = some (styleOn options elements).fontSize := by
  have hcontent := content_placedOn options elements target
  obtain ⟨f, hf, hsame⟩ := exists_of_forall₂ (Diagram.forall₂_edges_of_content hcontent) e he
  have hid : f.id = e.id := congrArg (·.id) hsame
  have hstyle : f.style = e.style := congrArg (·.style) hsame
  rw [← show f.label = e.label from congrArg (·.label) hsame] at hlabel
  obtain ⟨x, hx, hxid, hsize⟩ := (penOn options elements target).exists_edgeLabel_draw
    (Board.read (managed elements)).identity hf hlabel
    (Diagram.ends_of_content hcontent htarget.ends)
  obtain ⟨i, hi, hiid, hisize⟩ := fontSize_renewedOn hx
  rw [← hid] at hold
  rw [text_edgeElements hold hl] at hxid
  refine ⟨i, hi, hiid.trans hxid, hisize.trans (hsize.trans ?_)⟩
  rw [Pen.fontSize, Pen.choose, hstyle, (htarget.edges e he).fontSize]
  rfl

end Board

/-- The font sizes of labels that are on the board when a text is brought in.  The label of a node
keeps its size, unless it is the usual one and the drawing is asked for another.  The label of an
edge is drawn in the size of the board, whatever its own was. -/
theorem reconcile_labelSizes [Scalar α] {options : ReconcileOptions α} {text : String}
    {target : Diagram α} {items : List (Item α)} (htext : Diagram.parse text = .ok target) :
    ∃ out, reconcile options text items = .ok out
      ∧ (∀ id ∈ target.nodeIds, ∀ old l,
        shownContainer? (managed (items.map (·.element))) id = some old →
        labelOf? (live (managed (items.map (·.element)))) old.id = some l →
        ∃ i ∈ out, i.element.id = l.id
          ∧ i.element.fontSize = some ((unusual (BoardStyle.standard : BoardStyle α).fontSize
            l.fontSize).getD (styleOn options (items.map (·.element))).fontSize))
      ∧ ∀ e ∈ target.edges, e.label.isSome = true → ∀ old l,
        shownArrow? (managed (items.map (·.element))) e.id = some old →
        labelOf? (live (managed (items.map (·.element)))) old.id = some l →
        ∃ i ∈ out, i.element.id = l.id
          ∧ i.element.fontSize = some (styleOn options (items.map (·.element))).fontSize := by
  have htarget := Diagram.isDescribed_of_parse htext
  refine ⟨_, reconcile_eq_ok.2 ⟨target, htext, rfl⟩, fun id hid old l hold hl => ?_,
    fun e he hlabel old l hold hl => ?_⟩
  · obtain ⟨i, hi, h⟩ := exists_nodeLabel_renewedOn options htarget hid hold hl
    exact ⟨i, List.mem_append_right _ hi, h⟩
  · obtain ⟨i, hi, h⟩ := exists_edgeLabel_renewedOn options htarget he hlabel hold hl
    exact ⟨i, List.mem_append_right _ hi, h⟩

/-! ## Looks that are lost -/

/-- A label in a larger font on the arrow of an edge between two boxes. -/
def largeLabel : Element Float :=
  { Element.bare "t" .text with
    text := some "x", containerId := some "e", fontSize := some 28 }

/-- The board with the label. -/
def largeLabelBoard : List (Item Float) :=
  [{ Element.bare "a" .rectangle with metadata := some { nodeId := some "A" } },
    { Element.bare "b" .rectangle with metadata := some { nodeId := some "B" } },
    { Element.bare "e" .arrow with
      metadata := some { edgeId := some "A->B", source := some "A", target := some "B" }
      boundElements := some [⟨"t", .text⟩] },
    largeLabel].map Item.drawn

/-- The label, which is managed, loses its size when the text of the board is brought in. -/
theorem not_keepsStyling_largeLabel :
    (largeLabelBoard.map (·.element.id)).Nodup
      ∧ Board.isManaged (largeLabelBoard.map (·.element)) largeLabel = true
      ∧ ∃ out, reconcile .standard "graph TD\nA -->|x| B" largeLabelBoard = .ok out
        ∧ ∃ new ∈ out.map (·.element), new.id = "t" ∧ ¬ largeLabel.KeepsStyling new := by
  obtain ⟨out, hout, hshown⟩ : ∃ out,
      reconcile .standard "graph TD\nA -->|x| B" largeLabelBoard = .ok out
        ∧ (out.any fun i => i.element.id = "t" && i.element.fontSize == some 20) = true :=
    exists_ok_of_any (by decide +kernel)
  simp only [List.any_eq_true, Bool.and_eq_true, decide_eq_true_eq] at hshown
  obtain ⟨i, hi, hid, hsize⟩ := hshown
  refine ⟨by decide, by decide, out, hout, i.element, List.mem_map_of_mem hi, hid,
    fun hkeeps => ?_⟩
  rw [hkeeps.fontSize 28 rfl] at hsize
  exact absurd hsize (by decide +kernel)

/-- A lifeline that somebody has unlocked. -/
def unlockedLifeline : Element Float :=
  { Element.bare "l" .line with
    metadata := some { tag := some Tag.lifeline.name, participantId := some "A" } }

/-- The board with the lifeline and its participant. -/
def unlockedBoard : List (Item Float) :=
  [{ Element.bare "a" .rectangle with metadata := some { nodeId := some "A" } },
    unlockedLifeline].map Item.drawn

/-- The lifeline, which is managed, is locked again when the text of the board is brought in. -/
theorem not_keepsStyling_unlockedLifeline :
    (unlockedBoard.map (·.element.id)).Nodup
      ∧ Board.isManaged (unlockedBoard.map (·.element)) unlockedLifeline = true
      ∧ ∃ out, reconcile .standard "sequenceDiagram\nparticipant A" unlockedBoard = .ok out
        ∧ ∃ new ∈ out.map (·.element), new.id = "l" ∧ ¬ unlockedLifeline.KeepsStyling new := by
  obtain ⟨out, hout, hshown⟩ : ∃ out,
      reconcile .standard "sequenceDiagram\nparticipant A" unlockedBoard = .ok out
        ∧ (out.any fun i => i.element.id = "l" && i.element.locked) = true :=
    exists_ok_of_any (by decide +kernel)
  simp only [List.any_eq_true, Bool.and_eq_true, decide_eq_true_eq] at hshown
  obtain ⟨i, hi, hid, hlocked⟩ := hshown
  refine ⟨by decide, by decide, out, hout, i.element, List.mem_map_of_mem hi, hid,
    fun hkeeps => ?_⟩
  rw [hkeeps.locked] at hlocked
  exact absurd hlocked Bool.false_ne_true

end DiagramBoard
