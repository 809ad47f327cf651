/-
DiagramBoard.Proofs.RoundTrip.Sequence — a sequence diagram, written and read again.

Here nothing is lost at all.  The writer puts the participants first, in their order, and so every
message finds its two; the messages keep their order and with it their numbers.

Main statement: what is read from a text is read from its form again (`parse_render_sequence`).
-/
import DiagramBoard.Proofs.Content
import DiagramBoard.Proofs.Grammar.Sequence

namespace DiagramBoard

open Text

namespace Grammar

/-- The grammar that a text selects, if it has content and its header is known. -/
def headerOf? (text : String) : Option Header :=
  (contentLines text.toList).head?.bind fun l => Header.ofWord? (firstWord l.text)

namespace Sequence

open Writer (indent)
open Writer.Sequence (participantLine headToken messageLine body)

variable {α : Type}

/-! ## Reading the written lines -/

/-- New participants are added in their order. -/
theorem foldl_participantItems (ns : List (Node α)) (d : Diagram α)
    (hp : ∀ n ∈ ns, IsParticipant n) (hnodup : (d.nodeIds ++ ns.map (·.id)).Nodup) :
    (ns.map participantItem).foldl Sequence.apply d = { d with nodes := d.nodes ++ ns } := by
  induction ns generalizing d with
  | nil => simp
  | cons n ns ih =>
    have hnew : n.id ∉ d.nodeIds := fun hm =>
      (List.nodup_append.1 hnodup).2.2 _ hm _ (by simp) rfl
    have hlabel : (if n.label = n.id then none else some n.label).getD n.id = n.label := by
      split
      · rename_i h
        exact h.symm
      · rfl
    have hstep : Sequence.apply d (participantItem n) = { d with nodes := d.nodes ++ [n] } := by
      have hn := (hp n List.mem_cons_self).eq
      have hhas : ¬(d.hasNode n.id = true) := fun h => hnew (Diagram.hasNode_iff.1 h)
      rw [participantItem, Sequence.apply, String.ofList_toList, hlabel, if_neg hhas, ← hn,
        Diagram.ensureNode_of_notMem hnew]
    rw [List.map_cons, List.foldl_cons, hstep,
      ih { d with nodes := d.nodes ++ [n] } (fun m hm => hp m (List.mem_cons_of_mem _ hm))
        (by simpa [Diagram.nodeIds] using hnodup)]
    simp

/-- Messages between participants are added in their order, with their numbers. -/
theorem foldl_messageItems (es : List (Edge α)) (d : Diagram α)
    (hm : ∀ p ∈ es.zipIdx d.edges.length, IsMessage p.2 p.1)
    (hends : ∀ e ∈ es, e.source ∈ d.nodeIds ∧ e.target ∈ d.nodeIds) :
    (es.map messageItem).foldl Sequence.apply d = { d with edges := d.edges ++ es } := by
  induction es generalizing d with
  | nil => simp
  | cons e es ih =>
    obtain ⟨hs, ht⟩ := hends e List.mem_cons_self
    have hstep : Sequence.apply d (messageItem e) = { d with edges := d.edges ++ [e] } := by
      have he := (hm (e, d.edges.length) (by simp [List.zipIdx_cons])).eq
      rw [messageItem, Sequence.apply, String.ofList_toList, String.ofList_toList,
        Diagram.ensureNode_of_mem (n := participantNode e.source e.source) hs,
        Diagram.ensureNode_of_mem (n := participantNode e.target e.target) ht, ← he, Diagram.addEdge]
    rw [List.map_cons, List.foldl_cons, hstep, ih { d with edges := d.edges ++ [e] }
      (fun p hp => hm p ?_) fun x hx => hends x (List.mem_cons_of_mem _ hx)]
    · simp
    · rw [List.length_append, List.length_singleton] at hp
      rw [List.zipIdx_cons]
      exact List.mem_cons_of_mem _ hp

/-! ## Every line carries content -/

theorem isWord_ends {d : Diagram α} (h : IsRead d) {e : Edge α} (he : e ∈ d.edges) :
    IsWord e.source.toList ∧ IsWord e.target.toList := by
  have hword : ∀ id ∈ d.nodeIds, IsWord id.toList := by
    intro id hid
    obtain ⟨n, hn, rfl⟩ := List.mem_map.1 hid
    exact (h.isParticipant n hn).isWord
  exact ⟨hword _ (h.ends e he).1, hword _ (h.ends e he).2⟩

/-- Every edge of a diagram that was read is a message, whatever its number. -/
theorem exists_isMessage {d : Diagram α} (h : IsRead d) {e : Edge α} (he : e ∈ d.edges) :
    ∃ index, IsMessage index e := by
  obtain ⟨i, hi, rfl⟩ := List.mem_iff_getElem.1 he
  exact ⟨i, h.isMessage (d.edges[i], i) (by simp [List.mem_zipIdx_iff_getElem?])⟩

theorem content_participantLine {n : Node α} (h : IsParticipant n) :
    '\n' ∉ participantLine n ∧ IsContent (trim (participantLine n)) := by
  constructor
  · have hid := h.isWord.isName.lineFeed_notMem
    have hlabel := Entity.notMem_encode (c := '\n') (by decide) h.lineFeed_notMem
    unfold participantLine
    split <;> simp [indent, hid, hlabel]
  · rw [trim_participantLine h.isWord]
    exact isContent_cons (by decide) _

theorem content_messageLine {e : Edge α} (hs : IsWord e.source.toList) (ht : IsWord e.target.toList)
    (hl : ∀ l ∈ e.label, IsTidy l.toList) :
    '\n' ∉ messageLine e ∧ IsContent (trim (messageLine e)) := by
  constructor
  · have h1 := hs.isName.lineFeed_notMem
    have h2 := ht.isName.lineFeed_notMem
    have h3 : '\n' ∉ (headToken e.endHead).toList := by cases e.endHead <;> decide
    unfold messageLine
    cases he : e.label with
    | none => split <;> simp [indent, h1, h2, h3]
    | some l =>
      have h4 := Entity.notMem_encode (c := '\n') (by decide) (hl l he).lineFeed_notMem
      split <;> simp [indent, h1, h2, h3, h4]
  · obtain ⟨c, w, hcw, hc⟩ := hs.exists_cons
    rw [trim_messageLine hs ht hl, hcw]
    refine isContent_cons ?_ _
    rintro rfl
    revert hc
    decide

theorem content_body {d : Diagram α} (h : IsRead d) :
    ∀ l ∈ body d, '\n' ∉ l ∧ IsContent (trim l) := by
  intro l hl
  rcases List.mem_append.1 hl with hl | hl
  · obtain ⟨n, hn, rfl⟩ := List.mem_map.1 hl
    exact content_participantLine (h.isParticipant n hn)
  · obtain ⟨e, he, rfl⟩ := List.mem_map.1 hl
    obtain ⟨hs, ht⟩ := isWord_ends h he
    obtain ⟨_, hm⟩ := exists_isMessage h he
    exact content_messageLine hs ht hm.isTidy

/-! ## The diagram that comes back -/

/-- Lines that say one thing each say these things together. -/
theorem filterMap_read? {β : Type} {line : β → List Char} {item : β → Item} {bs : List β}
    (h : ∀ b ∈ bs, Item.read? (trim (line b)) = some (item b)) :
    ((bs.map line).map trim).filterMap Item.read? = bs.map item := by
  induction bs with
  | nil => rfl
  | cons b bs ih =>
    rw [List.map_cons, List.map_cons, List.filterMap_cons, h b List.mem_cons_self,
      ih fun c hc => h c (List.mem_cons_of_mem _ hc), List.map_cons]

/-- The lines of a written sequence diagram are read as the diagram. -/
theorem parse_body {d : Diagram α} (h : IsRead d) {ls : List Line}
    (hls : ls.map (·.text) = (body d).map trim) : Sequence.parse ls = d := by
  have hitems : ls.filterMap (fun l => Item.read? l.text)
      = d.nodes.map participantItem ++ d.edges.map messageItem := by
    have htexts : ls.filterMap (fun l => Item.read? l.text)
        = (ls.map (·.text)).filterMap Item.read? := by
      rw [List.filterMap_map]
      rfl
    have hmessages : ∀ e ∈ d.edges, Item.read? (trim (messageLine e)) = some (messageItem e) := by
      intro e he
      obtain ⟨hs, ht⟩ := isWord_ends h he
      obtain ⟨_, hm⟩ := exists_isMessage h he
      exact read?_messageLine hs ht hm.head hm.isTidy
    rw [htexts, hls, body, List.map_append, List.filterMap_append,
      filterMap_read? fun n hn => read?_participantLine (h.isParticipant n hn),
      filterMap_read? hmessages]
  rw [Sequence.parse, hitems, List.foldl_append,
    foldl_participantItems d.nodes _ h.isParticipant (by simpa [Diagram.nodeIds] using h.nodup_nodeIds),
    foldl_messageItems d.edges]
  · simp only [List.nil_append, ← h.kind_eq, ← h.direction_eq, ← h.groups_eq]
  · exact h.isMessage
  · exact h.ends

end Sequence

end Grammar

open Grammar Sequence

variable {α : Type} [Scalar α]

/-- What a text with the header of a sequence diagram describes is read from its form again, exactly
and in both forms. -/
theorem Diagram.parse_render_sequence {text : String} (h : headerOf? text = some .sequence)
    (compact : Bool) : ∃ d : Diagram α, Diagram.parse text = .ok d
      ∧ Diagram.parse (d.render compact) = .ok d := by
  obtain ⟨header, hheader, hword⟩ := Option.bind_eq_some_iff.1 h
  obtain ⟨body, hlines⟩ : ∃ body, contentLines text.toList = header :: body := by
    cases hc : contentLines text.toList with
    | nil => simp [hc] at hheader
    | cons l ls =>
      obtain rfl : l = header := by simpa [hc] using hheader
      exact ⟨ls, rfl⟩
  have hread : IsRead (Sequence.parse body : Diagram α) := isRead_parse fun l hl =>
    lineFeed_notMem_of_mem_contentLines (by rw [hlines]; exact List.mem_cons_of_mem _ hl)
  refine ⟨Sequence.parse body, ?_, ?_⟩
  · rw [parse_of_contentLines hlines, parseBody, hword]
  · set d : Diagram α := Sequence.parse body
    have hbody : d.bodyLines compact = Writer.Sequence.body d := by
      rw [Diagram.bodyLines, hread.kind_eq]
    obtain ⟨ls, hls, htext⟩ := Diagram.contentLines_render compact d
      (by rw [hbody]; exact content_body hread)
    have hsequence : Header.ofWord? (firstWord d.header) = some .sequence := by
      rw [Diagram.header, hread.kind_eq]
      rfl
    rw [Diagram.parse_of_contentLines hls, parseBody, hsequence]
    exact congrArg Except.ok (parse_body hread (by rw [htext, hbody]))

/-- Participants named by keywords, an alias with entities, an activation mark and a note. -/
theorem Diagram.parse_render_sequence_keywords :
    headerOf? "sequenceDiagram\nparticipant end as \"#quot;E#35;\"\nNote over end\nalt->>+end: a : \"b\""
      = some .sequence
    ∧ ∃ d : Diagram Float, Diagram.parse
        "sequenceDiagram\nparticipant end as \"#quot;E#35;\"\nNote over end\nalt->>+end: a : \"b\"" = .ok d
      ∧ Diagram.parse (d.render false) = .ok d := by
  have h : headerOf?
      "sequenceDiagram\nparticipant end as \"#quot;E#35;\"\nNote over end\nalt->>+end: a : \"b\""
      = some .sequence := by decide +kernel
  exact ⟨h, parse_render_sequence h false⟩

end DiagramBoard
