/-
DiagramBoard.Proofs.Grammar.Sequence — sequence diagrams: what is read, and what is written for it.

Every diagram that is read consists of participants and numbered messages, whatever the lines say
besides.  A participant's line and a message's line keep clear of the words that start a line without
either: a name is glued to its arrow, and no such word has a blank behind it then.

Main statements: what every line says (`isItem_of_read?`) and so what every diagram is
(`isRead_parse`), and what the written lines are read as (`read?_participantLine`,
`read?_messageLine`).
-/
import DiagramBoard.Grammar.Sequence
import DiagramBoard.Proofs.Diagram.Nodes
import DiagramBoard.Proofs.Writer.Lines
import DiagramBoard.Writer.Sequence

namespace DiagramBoard.Grammar.Sequence

open Text
open Writer (indent trim_indent)
open Writer.Sequence (participantLine headToken messageLine)

variable {α : Type}

/-! ## What a line says -/

/-- The heads of messages. -/
def heads : List ArrowHead := headTokens.map (·.2)

/-- What holds of everything that a line can say. -/
def Item.IsItem : Item → Prop
  | .participant id label =>
    IsWord id ∧ ∀ l ∈ label, l.toList ≠ [] ∧ '\n' ∉ l.toList
  | .message source target _ head text =>
    IsWord source ∧ IsWord target ∧ head ∈ heads ∧ ∀ l ∈ text, IsTidy l.toList

theorem isItem_of_participant? {s : List Char} {item : Item} (hs : '\n' ∉ s)
    (h : participant? s = some item) : item.IsItem := by
  obtain ⟨r, hr, h⟩ := Option.bind_eq_some_iff.1 h
  obtain ⟨t, ht, h⟩ := Option.bind_eq_some_iff.1 h
  obtain ⟨⟨id, u⟩, hid, h⟩ := Option.bind_eq_some_iff.1 h
  have hsub : r ⊆ s := by
    rcases Option.or_eq_some_iff.1 hr with hr | ⟨-, hr⟩ <;> exact subset_of_after? hr
  have hut : u ⊆ s := fun c hc =>
    hsub (subset_of_skipSomeSpaces? ht ((subset_of_takeSome? hid).2 hc))
  dsimp only at h
  split at h
  · obtain rfl := Option.some.inj h
    refine ⟨isWord_of_word? hid, fun l hl => ?_⟩
    obtain ⟨a, ha, hl⟩ := Option.bind_eq_some_iff.1 hl
    obtain ⟨v, hv⟩ := optionally_eq_some ha
    have hau : a ⊆ u := by
      obtain ⟨x, hx, hv⟩ := Option.bind_eq_some_iff.1 hv
      obtain ⟨y, hy, hv⟩ := Option.bind_eq_some_iff.1 hv
      obtain ⟨z, hz, heq⟩ := Option.map_eq_some_iff.1 hv
      obtain rfl : z = a := (Prod.mk.inj heq).1
      exact fun c hc => subset_of_skipSomeSpaces? hx (subset_of_after? hy
        (subset_of_skipSomeSpaces? hz hc))
    exact ⟨quotableLabel_ne_nil hl,
      lineFeed_notMem_of_quotableLabel (fun hm => hs (hut (hau hm))) hl⟩
  · simp at h

theorem isItem_of_message? {s : List Char} {item : Item} (hs : '\n' ∉ s)
    (h : message? s = some item) : item.IsItem := by
  obtain ⟨⟨source, r⟩, hsource, h⟩ := Option.bind_eq_some_iff.1 h
  obtain ⟨⟨⟨dashed, head⟩, t⟩, harrow, h⟩ := Option.bind_eq_some_iff.1 h
  obtain ⟨⟨target, u⟩, htarget, h⟩ := Option.bind_eq_some_iff.1 h
  obtain ⟨text, htext, rfl⟩ := Option.map_eq_some_iff.1 h
  obtain ⟨⟨d, v⟩, hline, harrow⟩ := Option.bind_eq_some_iff.1 harrow
  obtain ⟨⟨k, w⟩, hhead, heq⟩ := Option.map_eq_some_iff.1 harrow
  obtain ⟨⟨rfl, rfl⟩, rfl⟩ : (d = dashed ∧ k = head) ∧ w = t := by simpa using heq
  refine ⟨isWord_of_word? hsource, isWord_of_word? htarget, (of_token? hhead).2, fun l hl => ?_⟩
  obtain ⟨x, rfl, hl⟩ := Option.bind_eq_some_iff.1 hl
  refine isTidy_of_plainLabel (fun hm => hs ?_) hl
  have hwr : w ⊆ r := fun c hc => skipSpaces_subset r
    (subset_of_token? hline (subset_of_token? hhead hc))
  have huw : u ⊆ w := fun c hc => optionally_subset subset_of_token? w
    (skipSpaces_subset _ ((subset_of_takeSome? htarget).2 hc))
  exact (subset_of_takeSome? hsource).2
    (hwr (huw (skipSpaces_subset u (subset_of_textAfterColon? htext hm))))

/-- What a line says is a participant or a message. -/
theorem isItem_of_read? {s : List Char} {item : Item} (hs : '\n' ∉ s)
    (h : Item.read? s = some item) : item.IsItem := by
  unfold Item.read? at h
  split at h
  · simp at h
  · rcases Option.or_eq_some_iff.1 h with h | ⟨-, h⟩
    · exact isItem_of_participant? hs h
    · exact isItem_of_message? hs h

/-! ## What is read -/

/-- A node that is a participant and nothing else. -/
structure IsParticipant (n : Node α) : Prop where
  eq : n = participantNode n.id n.label
  isWord : IsWord n.id.toList
  ne_nil : n.label.toList ≠ []
  lineFeed_notMem : '\n' ∉ n.label.toList

/-- An edge that is the message of a number and nothing else. -/
structure IsMessage (index : Nat) (e : Edge α) : Prop where
  eq : e = messageEdge index e.source e.target e.isDashed e.endHead e.label
  head : e.endHead ∈ heads
  isTidy : ∀ l ∈ e.label, IsTidy l.toList

/-- What every sequence diagram is that was read from a text. -/
structure IsRead (d : Diagram α) : Prop where
  kind_eq : d.kind = .sequence
  direction_eq : d.direction = .right
  groups_eq : d.groups = []
  nodup_nodeIds : d.nodeIds.Nodup
  isParticipant : ∀ n ∈ d.nodes, IsParticipant n
  isMessage : ∀ p ∈ d.edges.zipIdx, IsMessage p.2 p.1
  ends : ∀ e ∈ d.edges, e.source ∈ d.nodeIds ∧ e.target ∈ d.nodeIds

theorem isParticipant_participantNode {id label : String} (hw : IsWord id.toList)
    (hl : label.toList ≠ []) (hn : '\n' ∉ label.toList) :
    IsParticipant (participantNode id label : Node α) :=
  ⟨rfl, hw, hl, hn⟩

theorem isMessage_messageEdge (index : Nat) (source target : String) (dashed : Bool)
    {head : ArrowHead} (hh : head ∈ heads) {text : Option String}
    (ht : ∀ l ∈ text, IsTidy l.toList) :
    IsMessage index (messageEdge index source target dashed head text : Edge α) where
  eq := by cases dashed <;> rfl
  head := hh
  isTidy := ht

theorem IsRead.ensureNode {d : Diagram α} (h : IsRead d) {n : Node α} (hn : IsParticipant n) :
    IsRead (d.ensureNode n) where
  kind_eq := by rw [Diagram.kind_ensureNode, h.kind_eq]
  direction_eq := by rw [Diagram.direction_ensureNode, h.direction_eq]
  groups_eq := by rw [Diagram.groups_ensureNode, h.groups_eq]
  nodup_nodeIds := Diagram.nodup_nodeIds_ensureNode h.nodup_nodeIds n
  isParticipant m hm := by
    rcases Diagram.mem_ensureNode hm with hm | rfl
    · exact h.isParticipant m hm
    · exact hn
  isMessage p hp := h.isMessage p (by rwa [Diagram.edges_ensureNode] at hp)
  ends e he := by
    rw [Diagram.edges_ensureNode] at he
    obtain ⟨h1, h2⟩ := h.ends e he
    exact ⟨Diagram.mem_nodeIds_ensureNode.2 (.inl h1), Diagram.mem_nodeIds_ensureNode.2 (.inl h2)⟩

/-- A relabelled participant is a participant. -/
theorem IsRead.relabel {d : Diagram α} (h : IsRead d) (id : String) {label : String}
    (hl : label.toList ≠ []) (hn : '\n' ∉ label.toList) :
    IsRead (d.modifyNode id fun n => { n with label := label }) := by
  have hids : (d.modifyNode id fun n => { n with label := label }).nodeIds = d.nodeIds :=
    Diagram.nodeIds_modifyNode d id fun _ => rfl
  refine ⟨h.kind_eq, h.direction_eq, h.groups_eq, by rw [hids]; exact h.nodup_nodeIds, fun m hm => ?_,
    h.isMessage, fun e he => by rw [hids]; exact h.ends e he⟩
  rcases Diagram.mem_modifyNode hm with hm | ⟨n, hn', -, rfl⟩
  · exact h.isParticipant m hm
  · have hp := h.isParticipant n hn'
    exact ⟨by rw [hp.eq]; rfl, hp.isWord, hl, hn⟩

theorem IsRead.addMessage {d : Diagram α} (h : IsRead d) {e : Edge α}
    (he : IsMessage d.edges.length e) (hs : e.source ∈ d.nodeIds) (ht : e.target ∈ d.nodeIds) :
    IsRead (d.addEdge e) where
  kind_eq := h.kind_eq
  direction_eq := h.direction_eq
  groups_eq := h.groups_eq
  nodup_nodeIds := h.nodup_nodeIds
  isParticipant := h.isParticipant
  isMessage p hp := by
    rw [Diagram.addEdge, List.zipIdx_append] at hp
    rcases List.mem_append.1 hp with hp | hp
    · exact h.isMessage p hp
    · obtain rfl : p = (e, d.edges.length) := by simpa using hp
      exact he
  ends x hx := by
    rcases List.mem_append.1 hx with hx | hx
    · exact h.ends x hx
    · obtain rfl := List.mem_singleton.1 hx
      exact ⟨hs, ht⟩

theorem IsRead.apply {d : Diagram α} (h : IsRead d) {item : Item} (hi : item.IsItem) :
    IsRead (apply d item) := by
  cases item with
  | participant id label =>
    obtain ⟨hw, hl⟩ := hi
    have hw' : IsWord (String.ofList id).toList := by rwa [String.toList_ofList]
    have hlabel : (label.getD (String.ofList id)).toList ≠ []
        ∧ '\n' ∉ (label.getD (String.ofList id)).toList := by
      cases label with
      | none => exact ⟨hw'.ne_nil, hw'.isName.lineFeed_notMem⟩
      | some l => exact hl l rfl
    rw [Sequence.apply]
    split
    · exact h.relabel _ hlabel.1 hlabel.2
    · exact h.ensureNode (isParticipant_participantNode hw' hlabel.1 hlabel.2)
  | message source target dashed head text =>
    obtain ⟨hs, ht, hh, hl⟩ := hi
    have hself : ∀ {w : List Char}, IsWord w →
        IsParticipant (participantNode (String.ofList w) (String.ofList w) : Node α) := by
      intro w hw
      have hw' : IsWord (String.ofList w).toList := by rwa [String.toList_ofList]
      exact isParticipant_participantNode hw' hw'.ne_nil hw'.isName.lineFeed_notMem
    rw [Sequence.apply]
    refine ((h.ensureNode (hself hs)).ensureNode (hself ht)).addMessage ?_ ?_ ?_
    · rw [Diagram.edges_ensureNode, Diagram.edges_ensureNode]
      exact isMessage_messageEdge _ _ _ _ hh hl
    · exact Diagram.mem_nodeIds_ensureNode.2 (.inl (Diagram.mem_nodeIds_ensureNode.2 (.inr rfl)))
    · exact Diagram.mem_nodeIds_ensureNode.2 (.inr rfl)

/-- What every text describes whose header is that of a sequence diagram. -/
theorem isRead_parse {ls : List Line} (hls : ∀ l ∈ ls, '\n' ∉ l.text) :
    IsRead (Sequence.parse ls : Diagram α) := by
  have hitems : ∀ item ∈ ls.filterMap fun l => Item.read? l.text, item.IsItem := by
    intro item hitem
    obtain ⟨l, hl, hread⟩ := List.mem_filterMap.1 hitem
    exact isItem_of_read? (hls l hl) hread
  rw [Sequence.parse]
  generalize ls.filterMap (fun l => Item.read? l.text) = items at hitems ⊢
  refine List.foldlRecOn (motive := fun d : Diagram α => IsRead d) _ _
    ⟨rfl, rfl, rfl, ?_, ?_, ?_, ?_⟩ fun d hd i hi => hd.apply (hitems i hi) <;>
    simp [Diagram.nodeIds]

/-! ## The lines of participants -/

/-- The keywords are words. -/
theorem isWordChar_keyword {k : String} (hk : k ∈ "participant" :: "actor" :: ignoredWords) :
    ∀ c ∈ k.toList, isWordChar c = true := by
  simp only [ignoredWords, List.mem_cons, List.not_mem_nil, or_false] at hk
  rcases hk with rfl | rfl | rfl | rfl | rfl | rfl | rfl | rfl | rfl | rfl | rfl | rfl | rfl | rfl
    | rfl | rfl | rfl | rfl | rfl <;> simp [isWordChar, isAlphanumeric]

/-- The name of a participant with the label behind it. -/
def nameText (n : Node α) : List Char :=
  n.id.toList ++ if n.label = n.id then [] else ' ' :: 'a' :: 's' :: ' ' :: '"'
    :: (Entity.encode n.label.toList ++ ['"'])

theorem trim_participantLine {n : Node α} (hw : IsWord n.id.toList) :
    trim (participantLine n) = "participant".toList ++ ' ' :: nameText n := by
  have hline : participantLine n = indent ++ ("participant".toList ++ ' ' :: nameText n) := by
    unfold participantLine nameText
    split <;> simp
  have hp : isBlank 'p' = false := by decide
  have hq : isBlank '"' = false := by decide
  rw [hline, trim_indent]
  refine trim_append_eq_self (by simp) (by simp [hp]) (by simp) ?_
  rw [List.getLast?_cons_of_ne_nil (by simp [nameText, hw.ne_nil]), nameText]
  split
  · rw [List.append_nil]
    exact hw.isName.last
  · have hsplit : ∀ s : List Char, (' ' :: 'a' :: 's' :: ' ' :: '"' :: (s ++ ['"']))
        = (' ' :: 'a' :: 's' :: ' ' :: '"' :: s) ++ ['"'] := fun s => rfl
    rw [hsplit, ← List.append_assoc, List.getLast?_append_of_ne_nil _ (by simp)]
    simp [hq]

/-- What the line of a participant says. -/
def participantItem (n : Node α) : Item :=
  .participant n.id.toList (if n.label = n.id then none else some n.label)

theorem participant?_nameText {n : Node α} (h : IsParticipant n) :
    participant? ("participant".toList ++ ' ' :: nameText n) = some (participantItem n) := by
  have hb : isWordChar ' ' = false := by decide
  have hname : skipSomeSpaces? (' ' :: nameText n) = some (nameText n) :=
    skipSomeSpaces?_space (h.isWord.isName.isSpace_head _)
  rw [participant?, after?_append, Option.some_or, Option.bind_some, hname, Option.bind_some,
    nameText, participantItem]
  by_cases hl : n.label = n.id
  · rw [if_pos hl, if_pos hl, word?_append h.isWord (by simp)]
    rfl
  · have hspace : ∀ c : Char, isSpace c = false → ∀ s, skipSomeSpaces? (' ' :: c :: s) = some (c :: s) :=
      fun c hc s => skipSomeSpaces?_space (by simpa using hc)
    have has : after? "as" ('a' :: 's' :: ' ' :: '"' :: (Entity.encode n.label.toList ++ ['"']))
        = some (' ' :: '"' :: (Entity.encode n.label.toList ++ ['"'])) := after?_eq_some.2 rfl
    have halias : alias? (' ' :: 'a' :: 's' :: ' ' :: '"' :: (Entity.encode n.label.toList ++ ['"']))
        = some ('"' :: (Entity.encode n.label.toList ++ ['"']), []) := by
      rw [alias?, hspace 'a' (by decide), Option.bind_some, has, Option.bind_some,
        hspace '"' (by decide), Option.map_some]
    rw [if_neg hl, if_neg hl, word?_append h.isWord (by simpa using hb), Option.bind_some]
    dsimp only
    rw [optionally_of_some halias, Option.bind_some, ← quotableLabel_space, quotableLabel_quoted,
      if_neg h.ne_nil]
    rfl

/-- The line of a participant declares it. -/
theorem read?_participantLine {n : Node α} (h : IsParticipant n) :
    Item.read? (trim (participantLine n)) = some (participantItem n) := by
  have hignored : isIgnored ("participant".toList ++ ' ' :: nameText n) = false := by
    rw [isIgnored, List.any_eq_false]
    intro k hk
    have hspace : isNameChar ' ' = false := by decide
    have hne : "participant".toList ≠ k.toList := by
      rw [Ne, String.toList_inj]
      rintro rfl
      revert hk
      decide
    have hname : ∀ {k : String}, k ∈ "participant" :: "actor" :: ignoredWords →
        ∀ c ∈ k.toList, isNameChar c = true :=
      fun hk c hc => isNameChar_of_isWordChar (isWordChar_keyword hk c hc)
    rw [afterKeyword?_append_eq_none hne (hname (by simp [hk])) (hname List.mem_cons_self)
      (by simpa using hspace)]
    simp
  rw [trim_participantLine h.isWord, Item.read?, hignored, participant?_nameText h]
  rfl

/-! ## The lines of messages -/

/-- The text of a message behind its target. -/
def messageText (text : Option String) : List Char :=
  match text with
  | some l => ':' :: ' ' :: Entity.encode l.toList
  | none => []

/-- The token of a message's line. -/
def lineToken (dashed : Bool) : String := if dashed then "--" else "-"

theorem trim_messageLine {e : Edge α} (hs : IsWord e.source.toList) (ht : IsWord e.target.toList)
    (hl : ∀ l ∈ e.label, IsTidy l.toList) : trim (messageLine e)
      = e.source.toList ++ ((lineToken e.isDashed).toList
        ++ ((headToken e.endHead).toList ++ (e.target.toList ++ messageText e.label))) := by
  have hline : messageLine e = indent ++ (e.source.toList ++ ((lineToken e.isDashed).toList
      ++ ((headToken e.endHead).toList ++ (e.target.toList ++ messageText e.label)))) := by
    unfold messageLine messageText lineToken
    cases e.label <;> simp
  have hlast : ∀ c ∈ (e.target.toList ++ messageText e.label).getLast?, isBlank c = false := by
    cases he : e.label with
    | none =>
      rw [messageText, List.append_nil]
      exact ht.isName.last
    | some l =>
      have htidy := (hl l he).encode
      have hsplit : e.target.toList ++ messageText (some l)
          = (e.target.toList ++ [':', ' ']) ++ Entity.encode l.toList := by simp [messageText]
      rw [hsplit, List.getLast?_append_of_ne_nil _ htidy.ne_nil]
      exact htidy.last
  have hne : e.target.toList ++ messageText e.label ≠ [] := by simp [ht.ne_nil]
  rw [hline, trim_indent]
  refine trim_append_eq_self hs.ne_nil hs.isName.head (by simp [ht.ne_nil]) ?_
  rw [← List.append_assoc, List.getLast?_append_of_ne_nil _ hne]
  exact hlast

/-- A name that is glued to an arrow is no keyword. -/
theorem afterKeyword?_glued {k : String} (hk : ∀ c ∈ k.toList, isWordChar c = true) {w : List Char}
    (hw : IsWord w) (r : List Char) : afterKeyword? k (w ++ '-' :: r) = none := by
  have hhyphen : isWordChar '-' = false := by decide
  have hword : (w ++ '-' :: r).takeWhile isWordChar = w := by
    rw [List.takeWhile_append_of_pos hw.isWordChar, List.takeWhile_cons_of_neg (by simp [hhyphen]),
      List.append_nil]
  cases h : afterKeyword? k (w ++ '-' :: r) with
  | none => rfl
  | some t =>
    rcases afterKeyword?_eq_some h with ⟨heq, -⟩ | ⟨c, s, hc, heq, -⟩
    · have := hk '-' (by rw [← heq]; simp)
      simp [hhyphen] at this
    · -- the keyword would be the whole name, with the hyphen for a blank
      have hcw : isWordChar c = false := by
        rw [← Bool.not_eq_true]
        intro hcw
        simp [isBlank_of_isWordChar hcw] at hc
      rw [heq, List.takeWhile_append_of_pos hk, List.takeWhile_cons_of_neg (by simp [hcw]),
        List.append_nil] at hword
      rw [hword, List.append_cancel_left_eq, List.cons.injEq] at heq
      rw [← heq.1] at hc
      exact absurd hc (by decide)

theorem isIgnored_glued {w : List Char} (hw : IsWord w) (r : List Char) :
    isIgnored (w ++ '-' :: r) = false := by
  rw [isIgnored, List.any_eq_false]
  intro k hk
  rw [afterKeyword?_glued (isWordChar_keyword (by simp [hk])) hw]
  simp

/-- A name that is glued to an arrow declares nothing. -/
theorem participant?_glued {w : List Char} (hw : IsWord w) (r : List Char) :
    participant? (w ++ '-' :: r) = none := by
  have hnone : ∀ k : String, (∀ c ∈ k.toList, isWordChar c = true) →
      ∀ t, after? k (w ++ '-' :: r) = some t → skipSomeSpaces? t = none := by
    intro k hk t ht
    rw [after?_append_of_class hk (by simp; decide)] at ht
    obtain ⟨u, hu, rfl⟩ := Option.map_eq_some_iff.1 ht
    refine skipSomeSpaces?_eq_none fun c hc => isSpace_of_isBlank_eq_false ?_
    cases u with
    | nil =>
      obtain rfl : '-' = c := by simpa using hc
      decide
    | cons d u =>
      obtain rfl : d = c := by simpa using hc
      exact isBlank_of_isWordChar (hw.isWordChar d (subset_of_after? hu List.mem_cons_self))
  rw [participant?, Option.bind_eq_none_iff]
  intro t ht
  rw [Option.bind_eq_none_iff]
  intro u hu
  rcases Option.or_eq_some_iff.1 ht with ht | ⟨-, ht⟩
  · rw [hnone "participant" (isWordChar_keyword (by simp)) t ht] at hu
    simp at hu
  · rw [hnone "actor" (isWordChar_keyword (by simp)) t ht] at hu
    simp at hu

/-- The arrow of a message is read in front of the name behind it. -/
theorem arrow?_tokens (dashed : Bool) {head : ArrowHead} (hh : head ∈ heads) {c : Char}
    (hc : isWordChar c = true) (r : List Char) :
    arrow? ((lineToken dashed).toList ++ ((headToken head).toList ++ c :: r))
      = some ((dashed, head), c :: r) := by
  have hgt : '>' ≠ c := by
    rintro rfl
    revert hc
    decide
  have hline : ∀ {d : Char}, '-' ≠ d → ∀ s, token? lineTokens ((lineToken dashed).toList ++ d :: s)
      = some (dashed, d :: s) := by
    intro d hd s
    cases dashed with
    | true => rfl
    | false =>
      show (List.findSome? _ lineTokens) = _
      simp [lineTokens, lineToken, after?, isPrefixOf?_cons, hd, List.isPrefixOf?]
  have hhead : token? headTokens ((headToken head).toList ++ c :: r) = some (head, c :: r) := by
    simp only [heads, headTokens, List.map_cons, List.map_nil, List.mem_cons, List.not_mem_nil,
      or_false] at hh
    rcases hh with rfl | rfl | rfl | rfl
    · rfl
    · show (List.findSome? _ headTokens) = _
      simp [headTokens, headToken, after?, isPrefixOf?_cons, hgt, List.isPrefixOf?]
    · rfl
    · rfl
  obtain ⟨d, s, hds, hd⟩ : ∃ d s, (headToken head).toList ++ c :: r = d :: s ∧ '-' ≠ d := by
    cases head <;> exact ⟨_, _, rfl, by decide⟩
  rw [arrow?]
  rw [hds] at hhead ⊢
  rw [hline hd, Option.bind_some, hhead, Option.map_some]

/-- What the line of a message says. -/
def messageItem (e : Edge α) : Item :=
  .message e.source.toList e.target.toList e.isDashed e.endHead e.label

/-- The line of a message sends it. -/
theorem read?_messageLine {e : Edge α} (hs : IsWord e.source.toList) (ht : IsWord e.target.toList)
    (hh : e.endHead ∈ heads) (hl : ∀ l ∈ e.label, IsTidy l.toList) :
    Item.read? (trim (messageLine e)) = some (messageItem e) := by
  obtain ⟨c, t, hct, hc⟩ := ht.exists_cons
  obtain ⟨r, hr⟩ : ∃ r, (lineToken e.isDashed).toList ++ ((headToken e.endHead).toList
      ++ (e.target.toList ++ messageText e.label)) = '-' :: r := by
    unfold lineToken
    split <;> exact ⟨_, rfl⟩
  have hhyphen : isWordChar '-' = false := by decide
  have hcolon : isWordChar ':' = false := by decide
  have hactivation : token? activationTokens (e.target.toList ++ messageText e.label) = none := by
    have hplus : '+' ≠ c := by rintro rfl; revert hc; decide
    have hminus : '-' ≠ c := by rintro rfl; revert hc; decide
    rw [hct, token?]
    simp [activationTokens, after?, isPrefixOf?_cons, hplus, hminus]
  have harrow := arrow?_tokens e.isDashed hh hc (t ++ messageText e.label)
  rw [← List.cons_append, ← hct, hr] at harrow
  have htext : (textAfterColon? (skipSpaces (messageText e.label))).map (·.bind plainLabel)
      = some e.label := by
    cases he : e.label with
    | none => rfl
    | some l =>
      rw [messageText, skipSpaces_eq_self (by simp [isSpace])]
      simp [textAfterColon?, plainLabel_encode (hl l he)]
  obtain ⟨text, htext, hlabel⟩ := Option.map_eq_some_iff.1 htext
  have hmessage : message? (e.source.toList ++ '-' :: r) = some (messageItem e) := by
    rw [message?, word?_append hs (by simpa using hhyphen), Option.bind_some,
      skipSpaces_eq_self (by simp [isSpace]), harrow, Option.bind_some]
    dsimp only
    rw [optionally_of_none hactivation, skipSpaces_eq_self (ht.isName.isSpace_head _),
      word?_append ht (by cases e.label <;> simp [messageText, hcolon]), Option.bind_some, htext,
      Option.map_some, hlabel]
    rfl
  rw [trim_messageLine hs ht hl, hr, Item.read?, isIgnored_glued hs, participant?_glued hs, hmessage]
  rfl

end DiagramBoard.Grammar.Sequence
