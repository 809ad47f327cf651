/-
DiagramBoard.Proofs.Writer.Strokes — what the text of a diagram tells of its looks.

The places and looks of nodes are not written at all, and neither are the colours of edges.  Only the
stroke of an edge becomes part of its line: a flowchart tells normal, dashed and thick strokes apart,
the texts of classes, entities and sequences dashed ones from others, and that of states none.  Where
two strokes are told apart, the lines part inside their tokens, and nothing behind can make up for it.

Main statement: two diagrams that differ in nothing but places and looks have the same text if and
only if their kind tells no strokes of theirs apart (`render_eq_iff`).
-/
import DiagramBoard.Proofs.Board.Plain
import DiagramBoard.Writer

namespace DiagramBoard

/-! ## Texts that part -/

/-- Whether two texts part, so that neither of them goes on where the other one ends. -/
def Diverge (xs ys : List Char) : Prop := ¬ xs <+: ys ∧ ¬ ys <+: xs

instance (xs ys : List Char) : Decidable (Diverge xs ys) :=
  inferInstanceAs (Decidable (¬ xs <+: ys ∧ ¬ ys <+: xs))

namespace Diverge

variable {xs ys : List Char}

theorem symm (h : Diverge xs ys) : Diverge ys xs := ⟨h.2, h.1⟩

theorem ne (h : Diverge xs ys) : xs ≠ ys := by
  rintro rfl
  exact h.1 (List.prefix_refl xs)

/-- Texts that have parted do not meet again. -/
theorem append (h : Diverge xs ys) (us vs : List Char) : Diverge (xs ++ us) (ys ++ vs) := by
  have hpart : ∀ {as bs cs ds : List Char}, ¬ as <+: bs → ¬ bs <+: as → ¬ as ++ cs <+: bs ++ ds := by
    intro as bs cs ds ha hb hprefix
    rcases List.prefix_or_prefix_of_prefix ((List.prefix_append as cs).trans hprefix)
      (List.prefix_append bs ds) with hp | hp
    · exact ha hp
    · exact hb hp
  exact ⟨hpart h.1 h.2, hpart h.2 h.1⟩

theorem prepend (h : Diverge xs ys) (zs : List Char) : Diverge (zs ++ xs) (zs ++ ys) :=
  ⟨fun hp => h.1 ((List.prefix_append_right_inj zs).1 hp),
    fun hp => h.2 ((List.prefix_append_right_inj zs).1 hp)⟩

/-- Texts whose lines are the same or part, line by line, are the same only if all lines are. -/
theorem eq_of_flatMap_eq {ls ms : List (List Char)}
    (h : List.Forall₂ (fun l m => l = m ∨ Diverge l m) ls ms)
    (heq : ls.flatMap (· ++ ['\n']) = ms.flatMap (· ++ ['\n'])) : ls = ms := by
  induction h with
  | nil => rfl
  | cons hl _ ih =>
    rw [List.flatMap_cons, List.flatMap_cons] at heq
    rcases hl with rfl | hl
    · rw [ih (List.append_cancel_left heq)]
    · exact absurd heq ((hl.append _ _).append _ _).ne

end Diverge

open Grammar.Flowchart (Stroke)

variable {α : Type}

namespace DiagramKind

/-- A stroke as far as the texts of a kind tell it from others. -/
def told (kind : DiagramKind) (s : Stroke) : Stroke :=
  match kind with
  | .state => .normal
  | .sequence | .classes | .er => if s = .dashed then .dashed else .normal
  | .flowchart | .gantt | .mindmap | .c4 => s

end DiagramKind

/-- An edge with another look and way. -/
def Edge.relooked (e : Edge α) (style : Option (StyleHints α))
    (points : Option (List (Point α))) : Edge α :=
  { e with style := style, points := points }

theorem Edge.eq_relooked {e f : Edge α} (h : f.plain = e.plain) :
    f = e.relooked f.style f.points := by
  cases e
  cases f
  simp only [Edge.plain, Edge.mk.injEq, and_true] at h
  obtain ⟨rfl, rfl, rfl, rfl, rfl, rfl⟩ := h
  rfl

/-! ## The lines of edges -/

namespace Writer

/-- Whether the line of an edge tells nothing of its look but whether it has gaps. -/
structure TellsGaps (line : Edge α → List Char) : Prop where
  same : ∀ e style points, (e.relooked style points).isDashed = e.isDashed →
    line (e.relooked style points) = line e
  part : ∀ e style points, (e.relooked style points).isDashed = true → e.isDashed = false →
    Diverge (line (e.relooked style points)) (line e)

theorem TellsGaps.cases {line : Edge α → List Char} (h : TellsGaps line) {e f : Edge α}
    (hplain : f.plain = e.plain) : (f.isDashed = e.isDashed ∧ line f = line e)
      ∨ (f.isDashed ≠ e.isDashed ∧ Diverge (line f) (line e)) := by
  have hf := Edge.eq_relooked hplain
  have he := Edge.eq_relooked hplain.symm
  by_cases hsame : f.isDashed = e.isDashed
  · rw [hf] at hsame ⊢
    exact .inl ⟨hsame, h.same e _ _ hsame⟩
  · refine .inr ⟨hsame, ?_⟩
    cases hgaps : e.isDashed with
    | false =>
      rw [hgaps, Bool.not_eq_false] at hsame
      rw [hf] at hsame ⊢
      exact h.part e _ _ hsame hgaps
    | true =>
      rw [hgaps, Bool.not_eq_true] at hsame
      rw [he] at hgaps ⊢
      exact (h.part f _ _ hgaps hsame).symm

namespace Class

/-- The token of a relation between two heads. -/
def tokenOf (dashed : Bool) (startHead endHead : ArrowHead) : String :=
  let line := if dashed then ".." else "--"
  let startMark := startToken dashed startHead
  let endMark := endToken dashed endHead
  if startMark = "<" && endMark = ">" && !dashed then "<-->"
  else if startMark = "" then line ++ endMark
  else startMark ++ line

theorem relationToken_eq (e : Edge α) :
    relationToken e = tokenOf e.isDashed e.startHead e.endHead := rfl

theorem diverge_tokenOf (startHead endHead : ArrowHead) :
    Diverge (tokenOf true startHead endHead).toList (tokenOf false startHead endHead).toList := by
  cases startHead <;> cases endHead <;> decide

theorem tellsGaps_relationLine : TellsGaps (relationLine : Edge α → List Char) where
  same e style points h := by
    unfold relationLine
    rw [relationToken_eq, relationToken_eq, h]
    rfl
  part e style points hf he := by
    unfold relationLine
    rw [relationToken_eq, relationToken_eq, hf, he]
    exact ((((diverge_tokenOf e.startHead e.endHead).prepend _).append _ _).append _ _).append _ _

end Class

theorem Entity.tellsGaps_relationLine : TellsGaps (relationLine : Edge α → List Char) where
  same e style points h := by
    unfold relationLine
    rw [h]
    rfl
  part e style points hf he := by
    have hline : Diverge "..".toList "--".toList := by decide
    unfold relationLine
    simp only [hf, he, ↓reduceIte, Bool.false_eq_true]
    exact ((((((hline.prepend _).append _ _).append _ _).append _ _).append _ _).append _ _).append
      _ _

theorem Sequence.tellsGaps_messageLine : TellsGaps (messageLine : Edge α → List Char) where
  same e style points h := by
    unfold messageLine
    rw [h]
    rfl
  part e style points hf he := by
    -- the lines of a message may be alike, but not with the head behind them
    have hline : ∀ head : ArrowHead, Diverge ("--".toList ++ (headToken head).toList)
        ("-".toList ++ (headToken head).toList) := by
      intro head
      cases head <;> decide
    unfold messageLine
    simp only [hf, he, ↓reduceIte, Bool.false_eq_true, List.append_assoc _ "--".toList,
      List.append_assoc _ "-".toList]
    exact (((hline e.endHead).prepend _).append _ _).append _ _

namespace Flowchart

/-- The token of a link, with a head at both ends or none at its end. -/
def tokenOf (stroke : Stroke) (both endless : Bool) : String :=
  match stroke with
  | .dashed => if both then "<-.->" else if endless then "-.-" else "-.->"
  | .thick => if both then "<==>" else if endless then "===" else "==>"
  | .normal => if both then "<-->" else if endless then "---" else "-->"

theorem diverge_tokenOf {s t : Stroke} (h : s ≠ t) (both endless : Bool) :
    Diverge (tokenOf s both endless).toList (tokenOf t both endless).toList := by
  cases s <;> cases t <;> first
    | exact absurd rfl h
    | cases both <;> cases endless <;> decide

variable [Scalar α]

theorem linkToken_eq (e : Edge α) : linkToken e = tokenOf (strokeOf e)
    (e.startHead ≠ .none && e.endHead ≠ .none) (decide (e.endHead = .none)) := by
  unfold linkToken tokenOf
  cases strokeOf e <;> simp

/-- A line has gaps if and only if its stroke is dashed. -/
theorem isDashed_eq (e : Edge α) : e.isDashed = decide (strokeOf e = .dashed) := by
  unfold strokeOf
  cases e.isDashed with
  | true => rfl
  | false =>
    simp only [Bool.false_eq_true, ↓reduceIte]
    split
    · split <;> rfl
    · rfl

/-- The lines of a link in two looks are the same if the strokes are, and part if they are not. -/
theorem edgeLine_cases (compact : Bool) {e f : Edge α} (hplain : f.plain = e.plain) :
    (strokeOf f = strokeOf e ∧ edgeLine compact f = edgeLine compact e)
      ∨ (strokeOf f ≠ strokeOf e ∧ Diverge (edgeLine compact f) (edgeLine compact e)) := by
  rw [Edge.eq_relooked hplain]
  by_cases h : strokeOf (e.relooked f.style f.points) = strokeOf e
  · refine .inl ⟨h, ?_⟩
    unfold edgeLine
    rw [linkToken_eq, linkToken_eq, h]
    rfl
  · refine .inr ⟨h, ?_⟩
    unfold edgeLine
    rw [linkToken_eq, linkToken_eq]
    exact ((((diverge_tokenOf h _ _).prepend _).append _ _).append _ _).append _ _

end Flowchart

/-! ### All kinds -/

variable [Scalar α]

open Flowchart (strokeOf isDashed_eq)

/-- The line of an edge in the text of a kind. -/
def edgeLineOf (kind : DiagramKind) (compact : Bool) (e : Edge α) : List Char :=
  match kind with
  | .sequence => Sequence.messageLine e
  | .classes => Class.relationLine e
  | .er => Entity.relationLine e
  | .state => State.transitionLine e
  | .c4 | .flowchart | .gantt | .mindmap => Flowchart.edgeLine compact e

/-- The lines of an edge in two looks are the same if the kind does not tell the strokes apart, and
part if it does. -/
theorem edgeLineOf_cases (kind : DiagramKind) (compact : Bool) {e f : Edge α}
    (hplain : f.plain = e.plain) :
    (kind.told (strokeOf f) = kind.told (strokeOf e)
        ∧ edgeLineOf kind compact f = edgeLineOf kind compact e)
      ∨ (kind.told (strokeOf f) ≠ kind.told (strokeOf e)
        ∧ Diverge (edgeLineOf kind compact f) (edgeLineOf kind compact e)) := by
  -- whether a line has gaps says whether its stroke is dashed
  have hgaps : ∀ {line : Edge α → List Char}, TellsGaps line →
      ((if strokeOf f = .dashed then Stroke.dashed else .normal)
          = (if strokeOf e = .dashed then .dashed else .normal) ∧ line f = line e)
        ∨ ((if strokeOf f = .dashed then Stroke.dashed else .normal)
          ≠ (if strokeOf e = .dashed then .dashed else .normal) ∧ Diverge (line f) (line e)) := by
    intro line hline
    have hcases := hline.cases hplain
    rw [isDashed_eq, isDashed_eq] at hcases
    by_cases hf : strokeOf f = .dashed <;> by_cases he : strokeOf e = .dashed <;>
      simpa [hf, he] using hcases
  cases kind with
  | state =>
    refine .inl ⟨rfl, ?_⟩
    rw [Edge.eq_relooked hplain]
    rfl
  | sequence => exact hgaps Sequence.tellsGaps_messageLine
  | classes => exact hgaps Class.tellsGaps_relationLine
  | er => exact hgaps Entity.tellsGaps_relationLine
  | flowchart => exact Flowchart.edgeLine_cases compact hplain
  | gantt => exact Flowchart.edgeLine_cases compact hplain
  | mindmap => exact Flowchart.edgeLine_cases compact hplain
  | c4 => exact Flowchart.edgeLine_cases compact hplain

/-- Edges in two looks have the same lines if and only if the kind tells no strokes apart. -/
theorem map_edgeLineOf_eq_iff (kind : DiagramKind) (compact : Bool) {es fs : List (Edge α)}
    (hplain : fs.map Edge.plain = es.map Edge.plain) :
    fs.map (edgeLineOf kind compact) = es.map (edgeLineOf kind compact)
      ↔ fs.map (fun e => kind.told (strokeOf e)) = es.map fun e => kind.told (strokeOf e) := by
  induction fs generalizing es with
  | nil =>
    obtain rfl : es = [] := by simpa using hplain.symm
    exact iff_of_true rfl rfl
  | cons f fs ih =>
    cases es with
    | nil => exact nomatch hplain
    | cons e es =>
      obtain ⟨hfe, hrest⟩ := List.cons.inj hplain
      have hone : edgeLineOf kind compact f = edgeLineOf kind compact e
          ↔ kind.told (strokeOf f) = kind.told (strokeOf e) := by
        rcases edgeLineOf_cases kind compact hfe with ⟨htold, hline⟩ | ⟨htold, hline⟩
        · exact iff_of_true hline htold
        · exact iff_of_false hline.ne htold
      rw [List.map_cons, List.map_cons, List.map_cons, List.map_cons, List.cons.injEq,
        List.cons.injEq, hone, ih hrest]

/-- The lines of edges in two looks are the same or part. -/
theorem forall₂_edgeLineOf (kind : DiagramKind) (compact : Bool) {es fs : List (Edge α)}
    (hplain : fs.map Edge.plain = es.map Edge.plain) :
    List.Forall₂ (fun l m => l = m ∨ Diverge l m) (fs.map (edgeLineOf kind compact))
      (es.map (edgeLineOf kind compact)) := by
  rw [← List.forall₂_eq_eq_eq, List.forall₂_map_left_iff, List.forall₂_map_right_iff] at hplain
  rw [List.forall₂_map_left_iff, List.forall₂_map_right_iff]
  refine hplain.imp fun f e hfe => ?_
  rcases edgeLineOf_cases kind compact hfe with ⟨-, hline⟩ | ⟨-, hline⟩
  · exact .inl hline
  · exact .inr hline

end Writer

/-! ## Texts -/

namespace Diagram

open Writer

/-- The lines of the body of a text that are about nodes and groups. -/
def nodeLines (compact : Bool) (d : Diagram α) : List (List Char) :=
  match d.kind with
  | .sequence => d.nodes.map Sequence.participantLine
  | .classes => directionLines d.direction ++ d.nodes.flatMap Class.classLines
  | .er => d.nodes.flatMap fun n => blockLines (indent ++ n.id.toList) n
  | .state => directionLines d.direction
    ++ (d.nodes.filter (·.id ≠ Grammar.State.startEndId)).map State.stateLine
  | .c4 | .flowchart | .gantt | .mindmap => d.groups.flatMap (Flowchart.groupLines compact d)
    ++ d.nodes.filterMap (Flowchart.nodeLine? compact d)

/-- The text says the nodes and groups first and then the edges. -/
theorem bodyLines_eq [Scalar α] (compact : Bool) (d : Diagram α) :
    d.bodyLines compact = d.nodeLines compact ++ d.edges.map (edgeLineOf d.kind compact) := by
  unfold bodyLines nodeLines edgeLineOf
  cases d.kind <;> rfl

theorem node?_plain (d : Diagram α) (id : String) :
    d.plain.node? id = (d.node? id).map Node.content := by
  rw [node?, plain, List.find?_map]
  rfl

theorem groupLines_plain (compact : Bool) (d : Diagram α) (g : Group) :
    Flowchart.groupLines compact d.plain g = Flowchart.groupLines compact d g := by
  have hnodes : (g.children.filterMap d.plain.node?).map (Flowchart.groupedLine compact)
      = (g.children.filterMap d.node?).map (Flowchart.groupedLine compact) := by
    rw [List.map_filterMap, List.map_filterMap]
    refine List.filterMap_congr fun id _ => ?_
    rw [node?_plain, Option.map_map]
    rfl
  rw [Flowchart.groupLines, hnodes, Flowchart.groupLines]

theorem nodeLine?_plain (compact : Bool) (d : Diagram α) (n : Node α) :
    Flowchart.nodeLine? compact d.plain n.content = Flowchart.nodeLine? compact d n := by
  have hlinked : Flowchart.isLinked d.plain n.id = Flowchart.isLinked d n.id := by
    rw [Flowchart.isLinked, plain, List.any_map]
    rfl
  unfold Flowchart.nodeLine?
  rw [show Flowchart.isLinked d.plain n.content.id = Flowchart.isLinked d n.id from hlinked]
  rfl

/-- Places and looks make no difference to the lines about nodes and groups. -/
theorem nodeLines_plain (compact : Bool) (d : Diagram α) :
    d.plain.nodeLines compact = d.nodeLines compact := by
  have hnodes : d.plain.nodes = d.nodes.map Node.content := rfl
  have hflowchart : d.plain.groups.flatMap (Flowchart.groupLines compact d.plain)
      ++ d.plain.nodes.filterMap (Flowchart.nodeLine? compact d.plain)
      = d.groups.flatMap (Flowchart.groupLines compact d)
        ++ d.nodes.filterMap (Flowchart.nodeLine? compact d) := by
    rw [hnodes, List.filterMap_map]
    congr 1
    · exact List.flatMap_congr fun g _ => groupLines_plain compact d g
    · exact List.filterMap_congr fun n _ => nodeLine?_plain compact d n
  have hstates : (d.plain.nodes.filter (·.id ≠ Grammar.State.startEndId)).map State.stateLine
      = (d.nodes.filter (·.id ≠ Grammar.State.startEndId)).map State.stateLine := by
    rw [hnodes, List.filter_map, List.map_map]
    rfl
  unfold nodeLines
  rw [show d.plain.kind = d.kind from rfl, show d.plain.direction = d.direction from rfl]
  cases d.kind with
  | sequence => exact List.map_map
  | classes => exact congrArg (directionLines d.direction ++ ·) (List.flatMap_map ..)
  | er => exact List.flatMap_map ..
  | state => exact congrArg (directionLines d.direction ++ ·) hstates
  | flowchart => exact hflowchart
  | gantt => exact hflowchart
  | mindmap => exact hflowchart
  | c4 => exact hflowchart

/-- Two diagrams that differ in nothing but places and looks have the same text if and only if their
kind tells no strokes of theirs apart. -/
theorem render_eq_iff [Scalar α] {d e : Diagram α} (h : d.plain = e.plain) (compact : Bool) :
    d.render compact = e.render compact
      ↔ d.edges.map (fun x => e.kind.told (Flowchart.strokeOf x))
        = e.edges.map fun x => e.kind.told (Flowchart.strokeOf x) := by
  have hkind : d.kind = e.kind := congrArg (·.kind) h
  have hdirection : d.direction = e.direction := congrArg (·.direction) h
  have hedges : d.edges.map Edge.plain = e.edges.map Edge.plain := congrArg (·.edges) h
  have hheader : d.header = e.header := by rw [header, header, hkind, hdirection]
  have hnodes : d.nodeLines compact = e.nodeLines compact := by
    rw [← nodeLines_plain, h, nodeLines_plain]
  rw [← map_edgeLineOf_eq_iff e.kind compact hedges, render, render, hheader, bodyLines_eq,
    bodyLines_eq, hnodes, hkind]
  constructor
  · intro htext
    have hlines := Diverge.eq_of_flatMap_eq ?_ (String.ofList_injective htext)
    · exact List.append_cancel_left (List.cons.inj hlines).2
    · refine .cons (.inl rfl) (List.rel_append ?_ (forall₂_edgeLineOf e.kind compact hedges))
      exact List.forall₂_same.2 fun l _ => .inl rfl
  · intro hlines
    rw [hlines]

end Diagram

end DiagramBoard
