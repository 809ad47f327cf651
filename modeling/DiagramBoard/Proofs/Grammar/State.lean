/-
DiagramBoard.Proofs.Grammar.State — state diagrams come back from the text that is written for them.

A state's line declares it and a transition's line joins two states; the start and the end are
written `[*]` and come back with the first transition that touches them.

Main statements: what each written line is read as (`readLine_stateLine`,
`readLine_transitionLine`), and the diagram that the lines of a whole diagram are read as
(`parse_body`).
-/
import DiagramBoard.Proofs.Diagram.Nodes
import DiagramBoard.Proofs.Writer.Lines
import DiagramBoard.Writer.State

namespace DiagramBoard.Grammar.State

open Text
open Writer (indent colonLabel directionLines trim_indent textAfterColon?_colonLabel
  isWordChar_head_colonLabel isBlank_last_colonLabel)
open Writer.State (reference stateLine transitionLine body)

variable {α : Type}

/-! ## The lines of states -/

theorem labelAs?_quoted {l w : List Char} (hw : IsWord w) (r : List Char) :
    labelAs? ('"' :: (Entity.encode l ++ '"' :: (' ' :: 'a' :: 's' :: ' ' :: (w ++ r))))
      = some (Entity.encode l, w ++ r) := by
  have ha : isSpace 'a' = false := by decide
  have h : after? "as" ('a' :: 's' :: ' ' :: (w ++ r)) = some (' ' :: (w ++ r)) :=
    after?_eq_some.2 rfl
  rw [labelAs?, quoted?_append (Entity.quote_notMem_encode l), Option.bind_some,
    skipSomeSpaces?_space (by simp [ha]), Option.bind_some, h, Option.bind_some,
    skipSomeSpaces?_space (hw.isName.isSpace_head r), Option.map_some]

theorem labelAs?_word {w : List Char} (hw : IsWord w) (r : List Char) : labelAs? (w ++ r) = none := by
  obtain ⟨c, w', rfl, hc⟩ := hw.exists_cons
  have hne : c ≠ '"' := by
    rintro rfl
    revert hc
    decide
  rw [labelAs?, quoted?_eq_none (by simpa using hne), Option.bind_none]

/-- What may follow the name of a state: nothing or the stereotype of a choice. -/
def stereotypeText (shape : Shape) : List Char :=
  if shape = .diamond then " <<choice>>".toList else []

theorem isWordChar_head_stereotypeText (shape : Shape) :
    ∀ c ∈ (stereotypeText shape).head?, isWordChar c = false := by
  have h : isWordChar ' ' = false := by decide
  unfold stereotypeText
  split <;> simp [h]

/-- The shape that a written state comes back with. -/
def writtenShape? (shape : Shape) : Option Shape :=
  if shape = .diamond then some .diamond else none

theorem stereotype?_stereotypeText (shape : Shape) :
    let s := optionally stereotype? (skipSpaces (stereotypeText shape))
    s.1.map stereotypeShape = writtenShape? shape
      ∧ (optionally (literal? "\x7b") (skipSpaces s.2)).2 = [] := by
  unfold stereotypeText writtenShape?
  split
  · decide
  · decide

/-- A declaration is read behind its keyword. -/
theorem declaration?_state {x w : List Char} (label : Option (List Char)) {shape : Shape}
    (hx : ∀ c ∈ x.head?, isSpace c = false)
    (hl : optionally labelAs? x = (label, w ++ stereotypeText shape)) (hw : IsWord w) :
    declaration? ("state".toList ++ ' ' :: x) =
      some (.declaration w (label.map fun l => String.ofList (Entity.decode l))
        (writtenShape? shape)) := by
  obtain ⟨h1, h2⟩ := stereotype?_stereotypeText shape
  rw [declaration?, after?_append, Option.bind_some, skipSomeSpaces?_space hx, Option.bind_some]
  simp only [hl]
  rw [word?_append hw (isWordChar_head_stereotypeText shape), Option.bind_some]
  simp only [h1, h2, trim_nil, if_true]

/-- A line that no keyword claims is what its declaration says. -/
theorem readLine_of_declaration (d : Diagram α) {s : List Char} {item : Item}
    (hdir : afterKeyword? "direction" s = none) (hbrace : startsWith "\x7d" s = false)
    (hnote : afterKeyword? "note" s = none) (h : declaration? s = some item) :
    readLine d s = apply d item := by
  simp [readLine, hdir, Item.read?, hbrace, hnote, h]

/-- A line that no keyword claims and that is no declaration is what its transition says. -/
theorem readLine_of_transition (d : Diagram α) {s : List Char} {item : Item}
    (hdir : afterKeyword? "direction" s = none) (hbrace : startsWith "\x7d" s = false)
    (hnote : afterKeyword? "note" s = none) (hdecl : declaration? s = none)
    (h : transition? s = some item) : readLine d s = apply d item := by
  simp [readLine, hdir, Item.read?, hbrace, hnote, hdecl, h]

/-- How the line of a state names it. -/
def nameText (n : Node α) : List Char :=
  if n.label = n.id then n.id.toList
  else '"' :: (Entity.encode n.label.toList ++ '"' :: ' ' :: 'a' :: 's' :: ' ' :: n.id.toList)

theorem stateLine_eq (n : Node α) :
    stateLine n = indent ++ ("state".toList ++ ' ' :: (nameText n ++ stereotypeText n.shape)) := by
  unfold stateLine nameText stereotypeText
  by_cases hl : n.label = n.id
  · simp only [hl, if_true, List.append_assoc]
    rfl
  · simp only [hl, if_false, List.append_assoc, List.cons_append]
    rfl

theorem isBlank_last_nameText {n : Node α} (hw : IsWord n.id.toList) :
    ∀ c ∈ (nameText n ++ stereotypeText n.shape).getLast?, isBlank c = false := by
  have hg : isBlank '>' = false := by decide
  have hname : nameText n ≠ [] ∧ ∀ c ∈ (nameText n).getLast?, isBlank c = false := by
    unfold nameText
    split
    · exact ⟨hw.ne_nil, hw.isName.last⟩
    · refine ⟨by simp, fun c hc => hw.isName.last c ?_⟩
      have hsplit : '"' :: (Entity.encode n.label.toList ++ '"' :: ' ' :: 'a' :: 's' :: ' ' :: n.id.toList)
          = ('"' :: Entity.encode n.label.toList ++ ['"', ' ', 'a', 's', ' ']) ++ n.id.toList := by
        simp
      rwa [hsplit, List.getLast?_append_of_ne_nil _ hw.ne_nil] at hc
  intro c hc
  by_cases hd : n.shape = .diamond
  · have hs : stereotypeText n.shape = [' ', '<', '<', 'c', 'h', 'o', 'i', 'c', 'e', '>', '>'] := by
      rw [stereotypeText, if_pos hd]
      rfl
    rw [hs, List.getLast?_append_of_ne_nil _ (by simp)] at hc
    obtain rfl : '>' = c := by simpa using hc
    exact hg
  · rw [stereotypeText, if_neg hd, List.append_nil] at hc
    exact hname.2 c hc

/-- The line of a state without the blanks around it. -/
theorem trim_stateLine {n : Node α} (hw : IsWord n.id.toList) :
    trim (stateLine n) = "state".toList ++ ' ' :: (nameText n ++ stereotypeText n.shape) := by
  have hs : isBlank 's' = false := by decide
  rw [stateLine_eq, trim_indent]
  refine trim_append_eq_self (by simp) (by simp [hs]) (by simp) ?_
  have hne : nameText n ++ stereotypeText n.shape ≠ [] := by
    have : nameText n ≠ [] := by
      unfold nameText
      split
      · exact hw.ne_nil
      · simp
    simp [this]
  rw [List.getLast?_cons_of_ne_nil hne]
  exact isBlank_last_nameText hw

/-- What the line of a state is read as. -/
theorem readLine_stateLine (d : Diagram α) {n : Node α} (hw : IsWord n.id.toList) :
    readLine d (trim (stateLine n)) =
      apply d (.declaration n.id.toList (if n.label = n.id then none else some n.label)
        (writtenShape? n.shape)) := by
  rw [trim_stateLine hw]
  refine readLine_of_declaration d rfl rfl rfl ?_
  by_cases hl : n.label = n.id
  · rw [nameText, if_pos hl, if_pos hl]
    exact declaration?_state none (hw.isName.isSpace_head _)
      (optionally_of_none (labelAs?_word hw _)) hw
  · have hq : isSpace '"' = false := by decide
    have hlab := labelAs?_quoted (l := n.label.toList) hw (stereotypeText n.shape)
    rw [nameText, if_neg hl, if_neg hl]
    have := declaration?_state (some (Entity.encode n.label.toList))
      (by simp [hq]) (optionally_of_some hlab) hw
    simpa using this

/-! ## The lines of transitions -/

theorem reference_ne_nil {id : String} (hw : IsWord id.toList) : reference id ≠ [] := by
  unfold reference
  split
  · decide
  · exact hw.ne_nil

theorem isBlank_reference {id : String} (hw : IsWord id.toList) :
    ∀ c ∈ reference id, isBlank c = false := by
  unfold reference
  split
  · have : startEndMark.toList = ['[', '*', ']'] := rfl
    rw [this]
    simp [isBlank]
  · exact hw.isName.isBlank

/-- A state comes back from how transitions mention it. -/
theorem state?_reference {id : String} (hw : IsWord id.toList) {r : List Char}
    (hr : ∀ c ∈ r.head?, isWordChar c = false) :
    ∃ s, state? (reference id ++ r) = some (s, r) ∧ stateId s = id := by
  unfold reference
  split
  · rename_i h
    refine ⟨startEndMark.toList, ?_, by simp [stateId, h]⟩
    rw [state?, after?_append]
    rfl
  · refine ⟨id.toList, ?_, ?_⟩
    · obtain ⟨c, w, hcw, hc⟩ := hw.exists_cons
      have hne : ('[' == c) = false := by
        rw [beq_eq_false_iff_ne]
        rintro rfl
        revert hc
        decide
      have hnone : after? startEndMark (id.toList ++ r) = none := by
        rw [hcw]
        show List.isPrefixOf? ('[' :: ['*', ']']) (c :: (w ++ r)) = none
        simp [isPrefixOf?_cons, hne]
      rw [state?, hnone, word?_append hw hr]
      rfl
    · have hne : id.toList ≠ startEndMark.toList := by
        intro h
        have := hw.isWordChar '[' (by rw [h]; decide)
        revert this
        decide
      rw [stateId, if_neg hne, String.ofList_toList]

/-- A transition is no declaration, even of a state called `state`. -/
theorem declaration?_transition {id : String} (hw : IsWord id.toList) (r : List Char) :
    declaration? (reference id ++ ' ' :: '-' :: r) = none := by
  have hrest : (skipSomeSpaces? (' ' :: '-' :: r)).bind (fun r =>
      (word? (optionally labelAs? r).2)) = none := by
    rw [skipSomeSpaces?_space (by simp [isSpace]), Option.bind_some]
    have hq : quoted? ('-' :: r) = none := quoted?_eq_none (by simp)
    rw [optionally_of_none (by simp [labelAs?, hq])]
    exact word?_cons_eq_none (by decide) r
  unfold reference
  split
  · rfl
  · have hk : ∀ c ∈ "state".toList, isWordChar c = true := by simp [isWordChar, isAlphanumeric]
    have hs : ∀ c ∈ (' ' :: '-' :: r).head?, isWordChar c = false := by
      have : isWordChar ' ' = false := by decide
      simp [this]
    rw [declaration?, after?_append_of_class hk hs]
    cases ha : after? "state" id.toList with
    | none => rfl
    | some t =>
      rw [after?_eq_some] at ha
      cases t with
      | nil =>
        simp only [Option.map_some, List.nil_append, Option.bind_some]
        rw [skipSomeSpaces?_space (by simp [isSpace]), Option.bind_some] at hrest ⊢
        rw [hrest]
        rfl
      | cons c t =>
        have hc := hw.isWordChar c (by simp [ha])
        have : isSpace c = false := isSpace_of_isBlank_eq_false (isBlank_of_isWordChar hc)
        simp only [Option.map_some, List.cons_append, Option.bind_some]
        rw [skipSomeSpaces?_eq_none (by simp [this])]
        rfl

/-- The line of a transition without the blanks around it. -/
theorem trim_transitionLine {e : Edge α} (hs : IsWord e.source.toList) (ht : IsWord e.target.toList)
    (hl : ∀ l ∈ e.label, IsTidy l.toList) :
    trim (transitionLine e) = reference e.source ++ ' ' :: '-' :: '-' :: '>' :: ' ' ::
      (reference e.target ++ colonLabel e.label) := by
  have hline : transitionLine e = indent ++ (reference e.source ++ (' ' :: '-' :: '-' :: '>' :: ' ' ::
      (reference e.target ++ colonLabel e.label))) := by
    simp [transitionLine]
  rw [hline, trim_indent]
  refine trim_append_eq_self (reference_ne_nil hs)
    (fun c hc => isBlank_reference hs c (List.mem_of_mem_head? hc)) (by simp) ?_
  have hcons : (' ' :: '-' :: '-' :: '>' :: ' ' :: (reference e.target ++ colonLabel e.label))
      = ([' ', '-', '-', '>', ' '] ++ reference e.target) ++ colonLabel e.label := by simp
  rw [hcons]
  refine isBlank_last_colonLabel (fun c hc => ?_) hl
  rw [List.getLast?_append_of_ne_nil _ (reference_ne_nil ht)] at hc
  exact isBlank_reference ht c (List.mem_of_mem_getLast? hc)

/-- No keyword claims a line that starts with a state of another name. -/
theorem afterKeyword?_reference {id k : String} (hw : IsWord id.toList) (hk : id ≠ k)
    (hkn : ∀ c ∈ k.toList, isNameChar c = true) (r : List Char) :
    afterKeyword? k (reference id ++ ' ' :: r) = none := by
  unfold reference
  split
  · have hmark : startEndMark.toList = ['[', '*', ']'] := rfl
    cases hkl : k.toList with
    | nil => simp [afterKeyword?, after?, hkl, hmark, List.isPrefixOf?, isBlank]
    | cons c k' =>
      have hne : (c == '[') = false := by
        rw [beq_eq_false_iff_ne]
        rintro rfl
        exact absurd (hkn '[' (by simp [hkl])) (by decide)
      simp [afterKeyword?, after?, hkl, hmark, isPrefixOf?_cons, hne]
  · have hspace : isNameChar ' ' = false := by decide
    exact afterKeyword?_append_eq_none (fun h => hk (String.toList_inj.1 h)) hkn
      hw.isName.isNameChar (by simp [hspace])

/-- A line that starts with a state closes nothing. -/
theorem startsWith_brace_reference {id : String} (hw : IsWord id.toList) (r : List Char) :
    startsWith "\x7d" (reference id ++ r) = false := by
  unfold reference
  split
  · rfl
  · obtain ⟨c, w, hcw, hc⟩ := hw.exists_cons
    have hne : ('\x7d' == c) = false := by
      rw [beq_eq_false_iff_ne]
      rintro rfl
      revert hc
      decide
    rw [hcw]
    show List.isPrefixOf ('\x7d' :: []) (c :: (w ++ r)) = false
    simp [List.isPrefixOf, hne]

/-- A transition is read whole. -/
theorem transition?_written {e : Edge α} (hs : IsWord e.source.toList) (ht : IsWord e.target.toList)
    (hl : ∀ l ∈ e.label, IsTidy l.toList) :
    ∃ s t, stateId s = e.source ∧ stateId t = e.target
      ∧ transition? (reference e.source ++ ' ' :: '-' :: '-' :: '>' :: ' ' ::
          (reference e.target ++ colonLabel e.label)) = some (.transition s t e.label) := by
  set rest := '-' :: '-' :: '>' :: ' ' :: (reference e.target ++ colonLabel e.label) with hrest
  have hspace : isWordChar ' ' = false := by decide
  obtain ⟨s, hsr, hsid⟩ := state?_reference hs (r := ' ' :: rest) (by simp [hspace])
  obtain ⟨t, htr, htid⟩ := state?_reference ht (isWordChar_head_colonLabel e.label)
  have harrow : after? "-->" rest = some (' ' :: (reference e.target ++ colonLabel e.label)) :=
    after?_eq_some.2 rfl
  have htarget : skipSpaces (' ' :: (reference e.target ++ colonLabel e.label))
      = reference e.target ++ colonLabel e.label := by
    refine skipSpaces_space fun c hc => ?_
    rw [List.head?_append_of_ne_nil _ (reference_ne_nil ht)] at hc
    exact isSpace_of_isBlank_eq_false (isBlank_reference ht c (List.mem_of_mem_head? hc))
  obtain ⟨x, hx, hxl⟩ := Option.map_eq_some_iff.1 (textAfterColon?_colonLabel hl)
  refine ⟨s, t, hsid, htid, ?_⟩
  rw [transition?, hsr, Option.bind_some, skipSpaces_space (by simp [hrest, isSpace]), harrow,
    Option.bind_some, htarget, htr, Option.bind_some]
  simp [hx, hxl]

/-- What the line of a transition is read as. -/
theorem readLine_transitionLine (d : Diagram α) {e : Edge α} (hs : IsWord e.source.toList)
    (ht : IsWord e.target.toList) (hl : ∀ l ∈ e.label, IsTidy l.toList)
    (hdir : e.source ≠ "direction") (hnote : e.source ≠ "note") :
    ∃ s t, stateId s = e.source ∧ stateId t = e.target
      ∧ readLine d (trim (transitionLine e)) = apply d (.transition s t e.label) := by
  rw [trim_transitionLine hs ht hl]
  obtain ⟨s, t, hsid, htid, htrans⟩ := transition?_written hs ht hl
  have hdirection := afterKeyword?_reference hs hdir (by simp [isNameChar, isWordChar, isAlphanumeric])
  have hremark := afterKeyword?_reference hs hnote (by simp [isNameChar, isWordChar, isAlphanumeric])
  exact ⟨s, t, hsid, htid, readLine_of_transition d (hdirection _) (startsWith_brace_reference hs _)
    (hremark _) (declaration?_transition hs _) htrans⟩

/-! ## The lines of a whole diagram -/

/-- The diagrams whose states and transitions can be written line by line. -/
structure IsWritable (d : Diagram α) : Prop where
  nodup_nodeIds : d.nodeIds.Nodup
  isWord : ∀ id ∈ d.nodeIds, IsWord id.toList
  lineFeed_notMem : ∀ n ∈ d.nodes, '\n' ∉ n.label.toList
  ends : ∀ e ∈ d.edges, e.source ∈ d.nodeIds ∧ e.target ∈ d.nodeIds
  source_ne : ∀ e ∈ d.edges, e.source ≠ "direction" ∧ e.source ≠ "note"
  isTidy : ∀ e ∈ d.edges, ∀ l ∈ e.label, IsTidy l.toList

/-- A state as its line describes it. -/
def writtenNode (n : Node α) : Node α :=
  { id := n.id, label := n.label, shape := if n.shape = .diamond then .diamond else .rounded }

/-- A transition as its line describes it. -/
def writtenEdge (index : Nat) (e : Edge α) : Edge α :=
  transitionEdge index e.source e.target e.label

/-- Whether a transition touches the start or the end. -/
def touchesStartEnd (e : Edge α) : Bool := e.source = startEndId || e.target = startEndId

theorem apply_declaration {d : Diagram α} {n : Node α} (hid : n.id.toList ≠ startEndMark.toList)
    (hne : n.id ≠ startEndId) (hnew : n.id ∉ d.nodeIds) :
    apply d (.declaration n.id.toList (if n.label = n.id then none else some n.label)
        (writtenShape? n.shape)) = { d with nodes := d.nodes ++ [writtenNode n] } := by
  have hs : stateId n.id.toList = n.id := by
    rw [stateId, if_neg hid, String.ofList_toList]
  have hnode : (stateNode n.id : Node α) = { id := n.id, label := n.id, shape := .rounded } := by
    rw [stateNode, if_neg hne]
  simp only [apply, hs, hnode]
  refine (Diagram.modifyNode_ensureNode (n := { id := n.id, label := n.id, shape := .rounded })
    _ hnew).trans ?_
  by_cases hl : n.label = n.id <;> by_cases hd : n.shape = .diamond <;>
    simp [writtenNode, writtenShape?, hl, hd]

theorem ne_startEndMark_of_isWord {w : List Char} (h : IsWord w) : w ≠ startEndMark.toList := by
  intro e
  have := h.isWordChar '[' (by rw [e]; decide)
  revert this
  decide

/-- The lines of states add these states. -/
theorem foldl_stateLines (ns : List (Node α)) (d : Diagram α)
    (hw : ∀ n ∈ ns, IsWord n.id.toList) (hne : ∀ n ∈ ns, n.id ≠ startEndId)
    (hnodup : (d.nodeIds ++ ns.map (·.id)).Nodup) :
    (ns.map fun n => trim (stateLine n)).foldl readLine d
      = { d with nodes := d.nodes ++ ns.map writtenNode } := by
  induction ns generalizing d with
  | nil => simp
  | cons n ns ih =>
    have hnew : n.id ∉ d.nodeIds := fun hm =>
      (List.nodup_append.1 hnodup).2.2 _ hm _ (by simp) rfl
    rw [List.map_cons, List.foldl_cons, readLine_stateLine d (hw n List.mem_cons_self),
      apply_declaration (ne_startEndMark_of_isWord (hw n List.mem_cons_self)) (hne n List.mem_cons_self) hnew,
      ih _ (fun m hm => hw m (List.mem_cons_of_mem _ hm))
        (fun m hm => hne m (List.mem_cons_of_mem _ hm))]
    · simp
    · simpa [Diagram.nodeIds, writtenNode] using hnodup

/-- The diagram with the start and end, if transitions are the first to touch it. -/
def withStartEnd (touched : Bool) (d : Diagram α) : Diagram α :=
  if touched then d.ensureNode (stateNode startEndId) else d

theorem ensureNode_stateNode {d : Diagram α} {id : String} (h : id ∈ d.nodeIds ∨ id = startEndId) :
    d.ensureNode (stateNode id) = withStartEnd (id = startEndId) d := by
  by_cases hs : id = startEndId
  · simp [withStartEnd, hs]
  · have hid : (stateNode id : Node α).id = id := by simp [stateNode, hs]
    rw [Diagram.ensureNode_of_mem (by rw [hid]; exact h.resolve_right hs)]
    simp [withStartEnd, hs]

theorem mem_nodeIds_withStartEnd {d : Diagram α} {b : Bool} {id : String} (h : id ∈ d.nodeIds) :
    id ∈ (withStartEnd b d).nodeIds := by
  unfold withStartEnd
  split
  · exact Diagram.mem_nodeIds_ensureNode.2 (.inl h)
  · exact h

theorem withStartEnd_withStartEnd (a b : Bool) (d : Diagram α) :
    withStartEnd a (withStartEnd b d) = withStartEnd (b || a) d := by
  cases a <;> cases b <;> simp [withStartEnd]
  rw [Diagram.ensureNode_of_mem]
  exact Diagram.mem_nodeIds_ensureNode.2 (.inr rfl)

theorem withStartEnd_addEdge (b : Bool) (d : Diagram α) (e : Edge α) :
    withStartEnd b (d.addEdge e) = (withStartEnd b d).addEdge e := by
  cases b with
  | false => rfl
  | true =>
    have hh : (d.addEdge e).hasNode (stateNode startEndId : Node α).id
        = d.hasNode (stateNode startEndId : Node α).id := rfl
    simp only [withStartEnd, if_true, Diagram.ensureNode, hh]
    split <;> rfl

@[simp] theorem edges_withStartEnd (b : Bool) (d : Diagram α) :
    (withStartEnd b d).edges = d.edges := by
  cases b <;> simp [withStartEnd]

/-- The lines of transitions add these transitions, and the start and end if one touches it. -/
theorem foldl_transitionLines {es : List (Edge α)} (d : Diagram α)
    (hw : ∀ e ∈ es, IsWord e.source.toList ∧ IsWord e.target.toList)
    (hl : ∀ e ∈ es, ∀ l ∈ e.label, IsTidy l.toList)
    (hs : ∀ e ∈ es, e.source ≠ "direction" ∧ e.source ≠ "note")
    (hends : ∀ e ∈ es, ∀ id ∈ [e.source, e.target], id ∈ d.nodeIds ∨ id = startEndId) :
    (es.map fun e => trim (transitionLine e)).foldl readLine d
      = { withStartEnd (es.any touchesStartEnd) d with
          edges := d.edges ++ (es.zipIdx d.edges.length).map fun p => writtenEdge p.2 p.1 } := by
  induction es generalizing d with
  | nil => simp [withStartEnd]
  | cons e es ih =>
    obtain ⟨s, t, hsid, htid, hread⟩ := readLine_transitionLine d (hw e List.mem_cons_self).1
      (hw e List.mem_cons_self).2 (hl e List.mem_cons_self) (hs e List.mem_cons_self).1
      (hs e List.mem_cons_self).2
    have hends' := hends e List.mem_cons_self
    have hstep : readLine d (trim (transitionLine e))
        = (withStartEnd (touchesStartEnd e) d).addEdge (writtenEdge d.edges.length e) := by
      rw [hread]
      simp only [apply, hsid, htid]
      rw [ensureNode_stateNode (hends' e.source (by simp)),
        ensureNode_stateNode ((hends' e.target (by simp)).imp_left mem_nodeIds_withStartEnd),
        withStartEnd_withStartEnd, edges_withStartEnd]
      rfl
    rw [List.map_cons, List.foldl_cons, hstep, ih _ (fun x hx => hw x (List.mem_cons_of_mem _ hx))
      (fun x hx => hl x (List.mem_cons_of_mem _ hx)) (fun x hx => hs x (List.mem_cons_of_mem _ hx))]
    · rw [withStartEnd_addEdge, withStartEnd_withStartEnd]
      simp [Diagram.addEdge, List.zipIdx_cons]
    · intro x hx id hid
      refine (hends x (List.mem_cons_of_mem _ hx) id hid).imp_left fun h => ?_
      exact mem_nodeIds_withStartEnd (b := touchesStartEnd e) h

/-! ## What is read from any lines -/

/-- What the states and transitions of a diagram are that was read from lines. -/
structure IsRead (d : Diagram α) : Prop where
  nodup_nodeIds : d.nodeIds.Nodup
  isWord : ∀ id ∈ d.nodeIds, IsWord id.toList
  lineFeed_notMem : ∀ n ∈ d.nodes, '\n' ∉ n.label.toList
  ends : ∀ e ∈ d.edges, e.source ∈ d.nodeIds ∧ e.target ∈ d.nodeIds
  label : ∀ e ∈ d.edges, ∀ l ∈ e.label, l.toList ≠ [] ∧ '\n' ∉ l.toList

/-- What a line says when it has no line feed. -/
def Item.IsOneLine : Item → Prop
  | .declaration id label _ => IsWord (stateId id).toList ∧ ∀ l ∈ label, '\n' ∉ l.toList
  | .transition source target label => IsWord (stateId source).toList
      ∧ IsWord (stateId target).toList ∧ ∀ l ∈ label, l.toList ≠ [] ∧ '\n' ∉ l.toList
  | .description id text => IsWord (stateId id).toList ∧ '\n' ∉ text.toList

theorem isWord_startEndId : IsWord startEndId.toList :=
  ⟨by decide, by simp [startEndId, Text.isWordChar, isAlphanumeric]⟩

theorem isWord_stateId {w : List Char} (hw : IsWord w) : IsWord (stateId w).toList := by
  rw [stateId, if_neg (ne_startEndMark_of_isWord hw), String.toList_ofList]
  exact hw

theorem isWord_of_state? {s w r : List Char} (h : state? s = some (w, r)) :
    IsWord (stateId w).toList ∧ r ⊆ s := by
  rcases Option.or_eq_some_iff.1 h with h | ⟨-, h⟩
  · obtain ⟨t, ht, heq⟩ := Option.map_eq_some_iff.1 h
    obtain ⟨rfl, rfl⟩ := Prod.mk.inj heq
    exact ⟨isWord_startEndId, subset_of_after? ht⟩
  · exact ⟨isWord_stateId (isWord_of_word? h), (subset_of_takeSome? h).2⟩

theorem isOneLine_of_declaration? {s : List Char} {item : Item} (hs : '\n' ∉ s)
    (h : declaration? s = some item) : item.IsOneLine := by
  obtain ⟨r1, h1, h⟩ := Option.bind_eq_some_iff.1 h
  obtain ⟨r2, h2, h⟩ := Option.bind_eq_some_iff.1 h
  obtain ⟨id, hid, h⟩ := Option.bind_eq_some_iff.1 h
  dsimp only at h
  split at h
  · obtain rfl := Option.some.inj h
    refine ⟨isWord_stateId (isWord_of_word? hid), ?_⟩
    intro l hl
    obtain ⟨t, ht, rfl⟩ := Option.map_eq_some_iff.1 hl
    obtain ⟨r3, h3⟩ := optionally_eq_some ht
    obtain ⟨p, hp, h3⟩ := Option.bind_eq_some_iff.1 h3
    obtain ⟨r4, -, h3⟩ := Option.bind_eq_some_iff.1 h3
    obtain ⟨r5, -, h3⟩ := Option.bind_eq_some_iff.1 h3
    obtain ⟨r6, -, heq⟩ := Option.map_eq_some_iff.1 h3
    obtain ⟨rfl, -⟩ := Prod.mk.inj heq
    rw [String.toList_ofList]
    refine Entity.notMem_decode (by decide) fun hm => hs ?_
    exact subset_of_after? h1 (subset_of_skipSomeSpaces? h2 ((subset_of_quoted? hp).1 hm))
  · simp at h

theorem isOneLine_of_transition? {s : List Char} {item : Item} (hs : '\n' ∉ s)
    (h : transition? s = some item) : item.IsOneLine := by
  obtain ⟨source, hsource, h⟩ := Option.bind_eq_some_iff.1 h
  obtain ⟨r1, h1, h⟩ := Option.bind_eq_some_iff.1 h
  obtain ⟨target, htarget, h⟩ := Option.bind_eq_some_iff.1 h
  obtain ⟨label, hlabel, rfl⟩ := Option.map_eq_some_iff.1 h
  refine ⟨(isWord_of_state? hsource).1, (isWord_of_state? htarget).1, fun l hl => ?_⟩
  refine of_textAfterColon?_bind (fun hm => hs ?_) hlabel hl
  have h2 := (isWord_of_state? htarget).2 (skipSpaces_subset _ hm)
  have h3 := subset_of_after? h1 (skipSpaces_subset _ h2)
  exact (isWord_of_state? hsource).2 (skipSpaces_subset _ h3)

theorem isOneLine_of_description? {s : List Char} {item : Item} (hs : '\n' ∉ s)
    (h : description? s = some item) : item.IsOneLine := by
  obtain ⟨id, hid, h⟩ := Option.bind_eq_some_iff.1 h
  obtain ⟨r, hr, rfl⟩ := Option.map_eq_some_iff.1 h
  refine ⟨isWord_stateId (isWord_of_word? hid), ?_⟩
  rw [String.toList_ofList]
  refine Entity.notMem_decode (by decide) fun hm => hs ?_
  exact (subset_of_takeSome? hid).2 (skipSpaces_subset _ (subset_of_after? hr (trim_subset r hm)))

theorem isOneLine_of_read? {s : List Char} {item : Item} (hs : '\n' ∉ s)
    (h : Item.read? s = some item) : item.IsOneLine := by
  unfold Item.read? at h
  split at h
  · simp at h
  · rcases Option.or_eq_some_iff.1 h with h | ⟨-, h⟩
    · rcases Option.or_eq_some_iff.1 h with h | ⟨-, h⟩
      · exact isOneLine_of_declaration? hs h
      · exact isOneLine_of_transition? hs h
    · exact isOneLine_of_description? hs h

theorem stateNode_id (id : String) : (stateNode id : Node α).id = id := by
  unfold stateNode
  split <;> rfl

theorem IsRead.ensureNode {d : Diagram α} (h : IsRead d) {id : String} (hid : IsWord id.toList) :
    IsRead (d.ensureNode (stateNode id)) where
  nodup_nodeIds := Diagram.nodup_nodeIds_ensureNode h.nodup_nodeIds _
  isWord x hx := by
    rcases Diagram.mem_nodeIds_ensureNode.1 hx with hx | rfl
    · exact h.isWord x hx
    · rwa [stateNode_id]
  lineFeed_notMem n hn := by
    rcases Diagram.mem_ensureNode hn with hn | rfl
    · exact h.lineFeed_notMem n hn
    · unfold stateNode
      split
      · show '\n' ∉ startEndLabel.toList
        decide
      · exact hid.isName.lineFeed_notMem
  ends e he := by
    rw [Diagram.edges_ensureNode] at he
    exact ⟨Diagram.mem_nodeIds_ensureNode.2 (.inl (h.ends e he).1),
      Diagram.mem_nodeIds_ensureNode.2 (.inl (h.ends e he).2)⟩
  label e he := h.label e (Diagram.edges_ensureNode d _ ▸ he)

theorem IsRead.modifyNode {d : Diagram α} (h : IsRead d) (id : String) {f : Node α → Node α}
    (hid : ∀ n, (f n).id = n.id)
    (hlabel : ∀ n, '\n' ∉ n.label.toList → '\n' ∉ (f n).label.toList) :
    IsRead (d.modifyNode id f) where
  nodup_nodeIds := by rw [Diagram.nodeIds_modifyNode d id hid]; exact h.nodup_nodeIds
  isWord := by rw [Diagram.nodeIds_modifyNode d id hid]; exact h.isWord
  lineFeed_notMem n hn := by
    rcases Diagram.mem_modifyNode hn with hn | ⟨m, hm, -, rfl⟩
    · exact h.lineFeed_notMem n hn
    · exact hlabel m (h.lineFeed_notMem m hm)
  ends := by rw [Diagram.nodeIds_modifyNode d id hid]; exact h.ends
  label := h.label

theorem IsRead.addEdge {d : Diagram α} (h : IsRead d) {e : Edge α}
    (hs : e.source ∈ d.nodeIds) (ht : e.target ∈ d.nodeIds)
    (hl : ∀ l ∈ e.label, l.toList ≠ [] ∧ '\n' ∉ l.toList) : IsRead (d.addEdge e) where
  nodup_nodeIds := h.nodup_nodeIds
  isWord := h.isWord
  lineFeed_notMem := h.lineFeed_notMem
  ends x hx := by
    rcases List.mem_append.1 hx with hx | hx
    · exact h.ends x hx
    · obtain rfl := List.mem_singleton.1 hx
      exact ⟨hs, ht⟩
  label x hx := by
    rcases List.mem_append.1 hx with hx | hx
    · exact h.label x hx
    · obtain rfl := List.mem_singleton.1 hx
      exact hl

theorem IsRead.apply {d : Diagram α} (h : IsRead d) {item : Item} (hi : item.IsOneLine) :
    IsRead (apply d item) := by
  cases item with
  | declaration id label shape =>
    refine (h.ensureNode hi.1).modifyNode _ (fun _ => rfl) fun n hn => ?_
    cases label with
    | none => exact hn
    | some l => exact hi.2 l rfl
  | transition source target label =>
    refine ((h.ensureNode hi.1).ensureNode hi.2.1).addEdge ?_ ?_ hi.2.2
    · refine Diagram.mem_nodeIds_ensureNode.2 (.inl (Diagram.mem_nodeIds_ensureNode.2 (.inr ?_)))
      rw [stateNode_id]
      rfl
    · refine Diagram.mem_nodeIds_ensureNode.2 (.inr ?_)
      rw [stateNode_id]
      rfl
  | description id text =>
    exact (h.ensureNode hi.1).modifyNode _ (fun _ => rfl) fun n _ => hi.2

/-- One more line leaves a diagram of words and one-line labels such a diagram. -/
theorem IsRead.readLine {d : Diagram α} (h : IsRead d) {text : List Char} (ht : '\n' ∉ text) :
    IsRead (readLine d text) := by
  unfold State.readLine
  split
  · split
    · exact ⟨h.nodup_nodeIds, h.isWord, h.lineFeed_notMem, h.ends, h.label⟩
    · exact h
  · split
    · exact h.apply (isOneLine_of_read? ht ‹_›)
    · exact h

/-- Every diagram that is read has words for ids, labels on one line and edges between its nodes. -/
theorem isRead_parse {lines : List Line} (ht : ∀ l ∈ lines, '\n' ∉ l.text) :
    IsRead (parse lines : Diagram α) :=
  List.foldlRecOn _ _
    ⟨by simp [Diagram.nodeIds], by simp [Diagram.nodeIds], by simp, by simp, by simp⟩
    fun _ hd l hl => IsRead.readLine hd (ht l hl)

theorem kind_apply (d : Diagram α) (item : Item) : (apply d item).kind = d.kind := by
  cases item <;> simp [State.apply, Diagram.modifyNode, Diagram.addEdge]

theorem kind_readLine (d : Diagram α) (text : List Char) : (readLine d text).kind = d.kind := by
  unfold State.readLine
  split
  · split <;> rfl
  · split
    · exact kind_apply d _
    · rfl

/-- What is read is a state diagram. -/
theorem kind_parse (lines : List Line) : (parse lines : Diagram α).kind = .state :=
  List.foldlRecOn (motive := fun d : Diagram α => d.kind = .state) _ _ rfl
    fun d hd l _ => (kind_readLine d l.text).trans hd

end DiagramBoard.Grammar.State
