/-
DiagramBoard.Proofs.Reconcile.Places — nodes that are on a board already stay where they are.

The place of a node goes from its container into the diagram that the board shows, through the
change to the new diagram and one of two layouts into a drawing, and from there onto the board.
Each of these steps keeps it; only a class may get wider, for its members.

Main statements: the places that a board had are those of the new diagram (`mem_placeAfter`), and
bringing a board up to date keeps the places of its containers (`reconcile_keepsPlaces`).
-/
import DiagramBoard.Proofs.Board.Containers
import DiagramBoard.Proofs.Board.Drawn
import DiagramBoard.Proofs.Change
import DiagramBoard.Proofs.Layout.Places
import DiagramBoard.Proofs.Scalar
import DiagramBoard.Reconcile

namespace DiagramBoard

variable {α : Type}

/-- Bringing in a text succeeds exactly if it is one of a diagram. -/
theorem reconcile_eq_ok [Scalar α] {options : ReconcileOptions α} {text : String}
    {items out : List (Item α)} : reconcile options text items = .ok out ↔
      ∃ target, Diagram.parse text = .ok target ∧ Board.update options target items = out := by
  unfold reconcile
  cases (Diagram.parse text : Except SyntaxError (Diagram α)) with
  | error e => simp [Except.map]
  | ok target => simp [Except.map]

/-- A result that passes a test is there. -/
theorem exists_ok_of_any {ε β : Type} {x : Except ε β} {test : β → Bool}
    (h : x.toOption.any test = true) : ∃ b, x = .ok b ∧ test b = true := by
  cases x with
  | error e => exact absurd h Bool.false_ne_true
  | ok b => exact ⟨b, rfl, h⟩

/-! ## The places of a diagram -/

namespace Diagram

/-- A node of the new diagram that the old one has is carried to the place that it had. -/
theorem mem_carried {current target : Diagram α} (hcurrent : current.nodeIds.Nodup)
    {m n : Node α} (hm : m ∈ current.nodes) (hn : n ∈ target.nodes) (hid : n.id = m.id)
    {b : Box α} (hb : m.box = some b) :
    { n with box := some b, style := n.style.or m.style }
      ∈ (keepHints current ((DiagramChange.between current target).carryPlaces target)).nodes := by
  have hprevious := DiagramChange.previousBox?_of_mem hcurrent hm hn hid hb
  have hnode : current.node? n.id = some m := by
    rw [hid]
    exact node?_of_nodup hcurrent hm
  rw [keepHints, DiagramChange.carryPlaces, List.map_map]
  refine List.mem_map.2 ⟨n, hn, ?_⟩
  simp [hprevious, hnode]

variable [Scalar α]

/-- Apart from places, a diagram in ranks only gets the hints that its nodes had. -/
theorem unplaced_placeAfter (options : Layout.Options α) (current : Diagram α) {target : Diagram α}
    (hranks : target.kind.strategy ≠ .lanes) :
    (placeAfter options current target).unplaced = (keepHints current target).unplaced := by
  let carried := keepHints current ((DiagramChange.between current target).carryPlaces target)
  have hcarried : carried.unplaced = (keepHints current target).unplaced := by
    simp [carried, keepHints, DiagramChange.carryPlaces, unplaced, Node.unplaced,
      Function.comp_def]
  rw [← hcarried]
  unfold placeAfter
  simp only
  split
  · exact unplaced_layout (d := carried) hranks
  · split
    · exact unplaced_layoutNew (d := carried) hranks
    · exact unplaced_layout (d := carried) hranks

/-- Placing a diagram does not change what it says. -/
theorem content_placeAfter (options : Layout.Options α) (current target : Diagram α) :
    (placeAfter options current target).content = target.content := by
  let carried := keepHints current ((DiagramChange.between current target).carryPlaces target)
  have hcarried : carried.content = target.content := by
    simp only [carried, keepHints, DiagramChange.carryPlaces, content, List.map_map]
    rfl
  rw [← hcarried]
  unfold placeAfter
  simp only
  split
  · exact content_layout _ carried
  · split
    · exact content_layoutNew _ _ carried
    · exact content_layout _ carried

/-- While the direction stays, a node that the old diagram has is put where it was. -/
theorem mem_placeAfter {options : Layout.Options α} {current target : Diagram α}
    (hforce : options.forceRelayout = false) (hranks : target.kind.strategy ≠ .lanes)
    (hdirection : current.direction = target.direction) (hcurrent : current.nodeIds.Nodup)
    {m n : Node α} (hm : m ∈ current.nodes) (hn : n ∈ target.nodes) (hid : n.id = m.id)
    {b : Box α} (hb : m.box = some b) :
    { n with box := some b, style := n.style.or m.style }
      ∈ (placeAfter options current target).nodes := by
  let change := DiagramChange.between current target
  let carried := keepHints current (change.carryPlaces target)
  have hmem := mem_carried hcurrent hm hn hid hb
  have hsame : change.directionChanged = false := by simp [change, DiagramChange.between, hdirection]
  have hold : n.id ∉ change.addedIds := by
    intro h
    refine (DiagramChange.mem_addedIds.1 h).2 ?_
    rw [hid]
    exact mem_nodeIds hm
  have hplaced : n.id ∉ carried.unplacedIds := by
    intro h
    obtain ⟨k, hk, hkid⟩ := List.mem_map.1 h
    obtain ⟨hk, hnone⟩ := List.mem_filter.1 hk
    simp only [carried, keepHints, DiagramChange.carryPlaces, List.map_map, List.mem_map] at hk
    obtain ⟨x, hx, rfl⟩ := hk
    have hxid : x.id = m.id := (show x.id = n.id from hkid).trans hid
    have hprevious := DiagramChange.previousBox?_of_mem hcurrent hm hx hxid hb
    simp [change, hprevious] at hnone
  show _ ∈ (if change.directionChanged && !current.nodes.isEmpty then _ else _ : Diagram α).nodes
  rw [hsame, Bool.false_and, if_neg Bool.false_ne_true]
  split
  · exact mem_layoutNew_of_old (d := carried) hranks hmem hold hplaced
  · exact mem_layout_of_placed (d := carried) hranks hforce hmem rfl

end Diagram

/-! ## The containers of a board -/

/-- Whether an element is where another one was.  The container of a class may be wider. -/
structure Element.KeepsPlace [Scalar α] (mayWiden : Bool) (old new : Element α) : Prop where
  id : new.id = old.id
  x : new.x = old.x
  y : new.y = old.y
  height : new.height = old.height
  width : mayWiden = false → new.width = old.width
  /-- Numbers that differ from themselves are neither wider nor narrower. -/
  isAsWide : (old.width == old.width) = true → old.width ≤ new.width

namespace Pen

variable [Scalar α] [OrderedScalar α]

/-- The container of a node is at the place of the node. -/
theorem keepsPlace_nodePicture (p : Pen α) {n : Node α} {old : Element α} {ids : NodeElements}
    (hbox : n.box = some old.box) (hid : ids.container = old.id) :
    old.KeepsPlace n.sections.isSome (p.nodePicture n ids).container := by
  unfold nodePicture nodeDrawing
  cases n.sections with
  | none =>
    refine ⟨hid, ?_, ?_, ?_, ?_, ?_⟩
    all_goals simp only [plainDrawing, Element.placeAt, hbox, Option.getD_some, Element.box]
    · exact fun _ => trivial
    · exact OrderedScalar.le_refl
  | some sections =>
    refine ⟨hid, ?_, ?_, ?_, ?_, ?_⟩
    all_goals simp only [classDrawing, Element.placeAt, classBox, classWidth, hbox,
      Option.map_some, Option.getD_some, Element.box]
    · intro h
      simp at h
    · intro h
      exact OrderedScalar.le_trans (Scalar.le_larger _ h) (Scalar.le_larger _ (Scalar.larger_self _ h))

end Pen

variable [Scalar α]

theorem Element.KeepsPlace.of_skeleton {mayWiden : Bool} {old e e' : Element α}
    (he : old.KeepsPlace mayWiden e) (h : e'.skeleton = e.skeleton) :
    old.KeepsPlace mayWiden e' where
  id := (congrArg (·.id) h).trans he.id
  x := (congrArg (·.x) h).trans he.x
  y := (congrArg (·.y) h).trans he.y
  height := (congrArg (·.height) h).trans he.height
  width hw := (congrArg (·.width) h).trans (he.width hw)
  isAsWide hw := by
    rw [show e'.width = e.width from congrArg (·.width) h]
    exact he.isAsWide hw

namespace Board

/-- The elements of a board that are managed. -/
def managed (elements : List (Element α)) : List (Element α) :=
  elements.filter fun e => (managedIds elements).contains e.id

theorem skeleton_refreshed (ids : List String) (managed : List (Element α)) (e : Element α) :
    (refreshed ids managed e).element.skeleton = e.skeleton := by
  unfold refreshed
  split
  · exact Element.skeleton_refresh ..
  · rfl

variable [OrderedScalar α]

/-- Bringing a board up to date keeps the places of the containers whose nodes stay. -/
theorem update_keepsPlaces {options : ReconcileOptions α} {target : Diagram α}
    {items : List (Item α)} (hforce : options.layout.forceRelayout = false)
    (hranks : target.kind.strategy ≠ .lanes)
    (hdirection : (diagram (managed (items.map (·.element)))).direction = target.direction)
    {n : Node α} (hn : n ∈ target.nodes) {old : Element α}
    (hold : shownContainer? (managed (items.map (·.element))) n.id = some old) :
    ∃ i ∈ update options target items,
      i.element.IsContainerOf target.kind target.direction n.id
        ∧ old.KeepsPlace n.sections.isSome i.element := by
  let elements := items.map (·.element)
  let current := Board.read (managed elements)
  let placed := Diagram.placeAfter options.layout current.diagram target
  let p := Pen.forDiagram (options.board.getD (BoardStyle.infer elements)) placed
  -- the node of the old diagram, and its elements
  obtain ⟨m, hm, hbox⟩ : ∃ m, current.diagram.node? n.id = some m ∧ m.box = some old.box := by
    have := box_node?_read (managed elements) n.id
    rw [hold] at this
    exact Option.map_eq_some_iff.1 this
  obtain ⟨ids, hids, hcontainer⟩ : ∃ ids, current.identity.node? n.id = some ids
      ∧ ids.container = old.id := by
    have := container_node?_read (managed elements) n.id
    rw [hold] at this
    exact Option.map_eq_some_iff.1 this
  have hmid : n.id = m.id := by
    have := List.find?_some hm
    simpa using (of_decide_eq_true this).symm
  -- the node of the new diagram, at the old place
  have hplaced := Diagram.mem_placeAfter hforce hranks hdirection
    (nodup_nodeIds_read _) (List.mem_of_find?_eq_some hm) hn hmid hbox
  have hdrawn := p.container_mem_draw current.identity hplaced
  let fresh : Node α := { n with box := some old.box, style := n.style.or m.style }
  have hsound := p.isSound_nodePicture fresh (Pen.nodeElements current.identity fresh)
  have hkeeps : old.KeepsPlace n.sections.isSome
      (p.nodePicture fresh (Pen.nodeElements current.identity fresh)).container := by
    refine p.keepsPlace_nodePicture (n := fresh) rfl ?_
    simp [Pen.nodeElements, Node.elementIds, fresh, hids, hcontainer]
  have hskeleton := (skeleton_refreshed (managedIds elements) (managed elements) _).trans
    (Element.skeleton_withArrows (p.allArrows current.identity placed)
      (p.nodePicture fresh (Pen.nodeElements current.identity fresh)).container)
  have hplan := Diagram.unplaced_placeAfter options.layout current.diagram hranks
  have hkind : placed.kind = target.kind := congrArg (·.kind) hplan
  have hdirected : placed.direction = target.direction := congrArg (·.direction) hplan
  have hshows := hsound.container.of_skeleton hskeleton
  rw [show p.kind = target.kind from hkind, show p.direction = target.direction from hdirected]
    at hshows
  exact ⟨_, List.mem_append_right _ (List.mem_map_of_mem hdrawn), hshows,
    hkeeps.of_skeleton hskeleton⟩

end Board

/-- Nodes that are on a board stay where they are, whatever else a new text changes: for every node
of the text that the board shows, the board keeps its container at its place and of its height, and
of its width too unless it is a class.  Only a new direction and a forced layout move them, and the
row in which participants stand. -/
theorem reconcile_keepsPlaces {options : ReconcileOptions Float} {text : String}
    {target : Diagram Float} {items : List (Item Float)}
    (hforce : options.layout.forceRelayout = false) (htext : Diagram.parse text = .ok target)
    (hranks : target.kind.strategy ≠ .lanes)
    (hdirection : (Board.diagram (Board.managed (items.map (·.element)))).direction
      = target.direction) :
    ∃ out, reconcile options text items = .ok out
      ∧ ∀ n ∈ target.nodes, ∀ old,
        Board.shownContainer? (Board.managed (items.map (·.element))) n.id = some old →
        ∃ i ∈ out, i.element.IsContainerOf target.kind target.direction n.id
          ∧ old.KeepsPlace n.sections.isSome i.element := by
  refine ⟨Board.update options target items, ?_, fun n hn old hold => ?_⟩
  · rw [reconcile, htext]
    rfl
  · exact Board.update_keepsPlaces hforce hranks hdirection hn hold

/-- A box for the node `A` that somebody has moved. -/
def movedBox : Element Float :=
  { Element.bare "a" .rectangle with
    x := 500, y := 300, width := 150, height := 60, metadata := some { nodeId := some "A" } }

/-- The moved box stays there when a node is put behind it. -/
theorem reconcile_keepsPlaces_moved :
    ∃ out, reconcile .standard "graph TD\nA[Start] --> B" [Item.drawn movedBox] = .ok out
      ∧ ∃ i ∈ out, i.element.id = "a" ∧ i.element.x = 500 ∧ i.element.y = 300
        ∧ i.element.height = 60 := by
  have hread : (match (Diagram.parse "graph TD\nA[Start] --> B" : Except _ (Diagram Float)) with
      | .ok d => decide (d.kind.strategy ≠ .lanes) && decide (d.direction = .down)
        && d.hasNode "A"
      | .error _ => false) = true := by decide +kernel
  cases htext : (Diagram.parse "graph TD\nA[Start] --> B" : Except _ (Diagram Float)) with
  | error e => simp [htext] at hread
  | ok target =>
    simp only [htext, Bool.and_eq_true, decide_eq_true_eq] at hread
    obtain ⟨⟨hranks, hdirection⟩, hnode⟩ := hread
    obtain ⟨n, hn, hid⟩ := List.any_eq_true.1 hnode
    have hdown : (Board.diagram (Board.managed [movedBox])).direction = .down := by
      decide +kernel
    have hsame : (Board.diagram (Board.managed ([Item.drawn movedBox].map (·.element)))).direction
        = target.direction := hdown.trans hdirection.symm
    obtain ⟨out, hout, hall⟩ := reconcile_keepsPlaces (show ReconcileOptions.standard.layout.forceRelayout = false from rfl) htext hranks hsame
    have hold : Board.shownContainer? (Board.managed [movedBox]) n.id = some movedBox := by
      rw [of_decide_eq_true hid]
      rfl
    obtain ⟨i, hi, -, hkeeps⟩ := hall n hn movedBox hold
    exact ⟨out, hout, i, hi, hkeeps.id, hkeeps.x, hkeeps.y, hkeeps.height⟩

end DiagramBoard
