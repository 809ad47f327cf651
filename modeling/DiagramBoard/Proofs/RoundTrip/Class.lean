/-
DiagramBoard.Proofs.RoundTrip.Class — a class or entity diagram, written and read again.

Classes and entities are written by different lines and read by one grammar, which makes the same
diagram of both but for the heads of the relations.

Main statements: what is read from a written diagram (`parse_render_classes`, `parse_render_er`); it
has the content of the written one (`sameContent_written`) and is written the same
(`render_written_classes`, `render_written_er`).
-/
import DiagramBoard.Proofs.Content
import DiagramBoard.Proofs.Grammar.ClassDraft

namespace DiagramBoard.Grammar.Class

open Text
open Writer (indent colonLabel blockLines directionLines lineFeed_notMem_colonLabel
  isBlank_last_colonLabel content_directionLines trim_indent)
open Writer.Class (classLines relationLine)

variable {α : Type} {kind : DiagramKind} {d : Diagram α}

/-! ## Diagrams that come back -/

/-- What every class or entity diagram needs in order to be read again from its lines. -/
structure IsWritable (kind : DiagramKind) (d : Diagram α) : Prop extends IsRead kind d where
  members : ∀ n ∈ d.nodes, ∀ m ∈ membersOf n, IsMemberLine m
  source_ne : ∀ e ∈ d.edges, e.source ≠ "direction"

/-- A class or an entity as its lines describe it. -/
def writtenNode (n : Node α) : Node α := { id := n.id, label := n.label, sections := n.sections }

/-- A diagram as its lines describe it. -/
def written (kind : DiagramKind) (direction : Direction) (relation : Edge α → Relation)
    (d : Diagram α) : Diagram α :=
  { kind := kind
    direction := direction
    nodes := d.nodes.map writtenNode
    edges := relationEdges relation 0 d.edges }

/-- A class or an entity before its members are read. -/
def declared (n : Node α) : Node α := { id := n.id, label := n.label, sections := some {} }

theorem withMembers_declared {n : Node α}
    (h : ∃ s, n.sections = some s ∧ SectionsComeBack kind s) :
    withMembers kind (declared n) n = writtenNode n := by
  obtain ⟨s, hs, hback⟩ := h
  have hm : membersOf n = s.members := by rw [membersOf, hs, Option.getD_some]
  rw [withMembers, hm, addMembers_members hback, writtenNode, hs]
  rfl

/-- The lines below the direction make the diagram that they describe. -/
theorem foldl_lines (h : IsWritable kind d) (direction : Direction) (start : Node α → List Char)
    (line : Edge α → List Char) (relation : Edge α → Relation)
    (hstart : ∀ n ∈ d.nodes, ∀ g : Diagram α, n.id ∉ g.nodeIds →
      Draft.readLine { diagram := g } (trim (start n ++ braceText (opensBlock n)))
        = { diagram := { g with nodes := g.nodes ++ [declared n] }
            owner := if opensBlock n then some n.id else none })
    (hline : ∀ e ∈ d.edges, Item.read (trim (line e))
      = .relation ⟨e.source.toList, e.target.toList, relation e, e.label⟩) :
    ((d.nodes.flatMap (fun n => blockLines (start n) n) ++ d.edges.map line).map trim).foldl
        Draft.readLine { diagram := { kind := kind, direction := direction } }
      = { diagram := written kind direction relation d } := by
  have hnodes := foldl_nodeLines start declared h.members
    (fun _ => ⟨rfl, rfl⟩) hstart { kind := kind, direction := direction }
    (by simpa [Diagram.nodeIds] using h.nodup_nodeIds)
  have hwritten : d.nodes.map (fun n => withMembers kind (declared n) n)
      = d.nodes.map writtenNode :=
    List.map_congr_left fun n hn => withMembers_declared (h.sections n hn)
  have hids : (d.nodes.map writtenNode).map (·.id) = d.nodeIds := by
    rw [List.map_map]
    rfl
  rw [List.map_append, List.foldl_append, hnodes, List.map_map, Function.comp_def,
    foldl_relationLines hline]
  · simp [written, hwritten]
  · intro e he
    have hends := h.ends e he
    simp only [Diagram.nodeIds, List.nil_append, hwritten, hids]
    exact hends

/-! ## Reading the lines -/

/-- A class or entity diagram is read from the lines that are written below its header. -/
theorem exists_parse_render [Scalar α] (compact : Bool) (hkind : kind = .classes ∨ kind = .er)
    (hd : d.kind = kind) (h : ∀ l ∈ d.bodyLines compact, '\n' ∉ l ∧ IsContent (trim l)) :
    ∃ ls : List Line, ls.map (·.text) = (d.bodyLines compact).map trim
      ∧ (Diagram.parse (d.render compact) : Except SyntaxError (Diagram α))
        = .ok (Class.parse kind ls) := by
  obtain ⟨ls, hls, htext⟩ := Diagram.contentLines_render compact d h
  refine ⟨ls, htext, ?_⟩
  rw [Diagram.parse_of_contentLines hls, parseBody]
  rcases hkind with rfl | rfl
  · have hheader : Header.ofWord? (firstWord d.header) = some .classes := by
      rw [Diagram.header, hd]
      rfl
    rw [hheader]
  · have hheader : Header.ofWord? (firstWord d.header) = some .er := by
      rw [Diagram.header, hd]
      rfl
    rw [hheader]

/-- A diagram is read from the texts of its lines. -/
theorem parse_eq_foldl (kind : DiagramKind) (ls : List Line) : (Class.parse kind ls : Diagram α)
    = ((ls.map (·.text)).foldl Draft.readLine { diagram := { kind := kind } }).diagram := by
  rw [Class.parse, List.foldl_map]

/-! ## The content of what comes back -/

theorem map_relationEdges {β : Type} (relation : Edge α → Relation) (es : List (Edge α))
    {f g : Edge α → β}
    (h : ∀ e ∈ es, ∀ i, f (relationEdge i
      ⟨e.source.toList, e.target.toList, relation e, e.label⟩) = g e) (index : Nat) :
    (relationEdges relation index es).map f = es.map g := by
  induction es generalizing index with
  | nil => rfl
  | cons e es ih =>
    have ih' := ih (fun x hx => h x (List.mem_cons_of_mem _ hx)) (index + 1)
    rw [relationEdges, List.zipIdx_cons, List.map_cons, List.map_cons, List.map_cons,
      h e List.mem_cons_self index]
    exact congrArg (g e :: ·) ih'

/-- The line of a relation that comes back has gaps if the relation has. -/
theorem isDashed_relationEdge (i : Nat) (l : RelationLine) :
    (relationEdge i l : Edge α).isDashed = l.relation.dashed := by
  obtain ⟨source, target, ⟨startHead, endHead, dashed⟩, label⟩ := l
  cases dashed <;> rfl

/-- The diagram that is read from a written one says the same. -/
theorem sameContent_written (direction : Direction) (relation : Edge α → Relation) :
    d.SameContent (written kind direction relation d) := by
  refine .of_edges (fun p => ?_) ?_
  · have : (written kind direction relation d).nodeLabels = d.nodeLabels := by
      rw [Diagram.nodeLabels, Diagram.nodeLabels, written, List.map_map]
      rfl
    rw [this]
  · exact (map_relationEdges relation d.edges (fun e _ i => by simp [relationEdge]) 0).symm

/-! ## Members and braces carry content -/

theorem content_memberLine {m : Member} (h : IsMemberLine m) :
    '\n' ∉ memberLine m ∧ IsContent (trim (memberLine m)) := by
  refine ⟨?_, by rw [trim_memberLine]; exact h.isContent⟩
  simp [memberLine, indent, h.lineFeed_notMem]

theorem content_blockLines {n : Node α} {start : List Char}
    (hms : ∀ m ∈ membersOf n, IsMemberLine m) (hlf : '\n' ∉ start)
    (hstart : ∀ opens, IsContent (trim (start ++ braceText opens))) :
    ∀ l ∈ blockLines start n, '\n' ∉ l ∧ IsContent (trim l) := by
  intro l hl
  by_cases hmem : membersOf n = []
  · rw [blockLines_of_nil hmem] at hl
    obtain rfl := List.mem_singleton.1 hl
    exact ⟨hlf, by simpa [braceText] using hstart false⟩
  · rw [blockLines_of_ne_nil hmem] at hl
    rcases List.mem_append.1 hl with hl | hl
    · rcases List.mem_cons.1 hl with rfl | hl
      · exact ⟨by simp [hlf, braceText], hstart true⟩
      · obtain ⟨m, hm, rfl⟩ := List.mem_map.1 hl
        exact content_memberLine (hms m hm)
    · obtain rfl := List.mem_singleton.1 hl
      exact ⟨by decide, isContent_cons (by decide) _⟩

/-- A line that starts with a name carries content. -/
theorem isContent_name {w : List Char} (hw : IsName w) (r : List Char) : IsContent (w ++ r) := by
  obtain ⟨c, w', rfl, hc⟩ := hw.exists_cons
  exact isContent_cons (isNameChar_ne hc (by decide)) _

/-! ## Classes -/

/-- A class diagram that comes back from its text. -/
structure IsClassWritable (d : Diagram α) : Prop extends IsWritable .classes d where
  isWord : ∀ id ∈ d.nodeIds, IsWord id.toList
  isTidy : ∀ e ∈ d.edges, ∀ l ∈ e.label, IsTidy l.toList

/-- The line of a class without its brace. -/
def classStart (n : Node α) : List Char :=
  indent ++ "class ".toList ++ n.id.toList ++ classLabel n

theorem classLines_eq (n : Node α) : classLines n = blockLines (classStart n) n := by
  have hlabel : (if n.label = n.id then []
      else "[\"".toList ++ Entity.encode n.label.toList ++ "\"]".toList) = classLabel n := by
    unfold classLabel
    split <;> simp
  rw [classLines, classStart, hlabel]

theorem trim_classStart {n : Node α} (hw : IsWord n.id.toList) (opens : Bool) :
    trim (classStart n ++ braceText opens)
      = "class".toList ++ ' ' :: (n.id.toList ++ (classLabel n ++ braceText opens)) := by
  have hline : classStart n ++ braceText opens
      = indent ++ ("class".toList ++ ' ' :: (n.id.toList ++ (classLabel n ++ braceText opens))) := by
    simp [classStart]
  have hc : isBlank 'c' = false := by decide
  have hbracket : isBlank ']' = false := by decide
  have hbrace : isBlank '\x7b' = false := by decide
  have hid : ∀ c ∈ n.id.toList.getLast?, isBlank c = false := fun c hm =>
    isBlank_of_isWordChar (hw.isWordChar c (List.mem_of_mem_getLast? hm))
  rw [hline, trim_indent]
  refine trim_append_eq_self (by simp) (by simp [hc]) (by simp) ?_
  have hne : n.id.toList ++ (classLabel n ++ braceText opens) ≠ [] := by
    simp [hw.ne_nil]
  rw [List.getLast?_cons_of_ne_nil hne]
  cases opens with
  | true =>
    rw [← List.append_assoc, List.getLast?_append_of_ne_nil _ (by simp [braceText])]
    simp [braceText, hbrace]
  | false =>
    rw [braceText, if_neg (by simp), List.append_nil, classLabel]
    split
    · rwa [List.append_nil]
    · rw [List.getLast?_append_of_ne_nil _ (by simp)]
      simp [List.getLast?_cons, hbracket]

theorem trim_relationLine {e : Edge α} (hs : IsWord e.source.toList) (ht : IsWord e.target.toList)
    (hl : ∀ l ∈ e.label, IsTidy l.toList) :
    trim (relationLine e) = e.source.toList ++ ' ' :: ((Writer.Class.relationToken e).toList ++
        ' ' :: (e.target.toList ++ colonLabel e.label)) := by
  have hline : relationLine e = indent ++ (e.source.toList ++
      ' ' :: ((Writer.Class.relationToken e).toList ++
        ' ' :: (e.target.toList ++ colonLabel e.label))) := by
    simp [relationLine]
  have hblank : ∀ w : List Char, IsWord w → ∀ c ∈ w, isBlank c = false := fun w hw c hm =>
    isBlank_of_isWordChar (hw.isWordChar c hm)
  rw [hline, trim_indent]
  refine trim_append_eq_self hs.ne_nil
    (fun c hc => hblank _ hs c (List.mem_of_mem_head? hc)) (by simp) ?_
  have hcons : (' ' :: ((Writer.Class.relationToken e).toList ++
        ' ' :: (e.target.toList ++ colonLabel e.label)))
      = ((' ' :: ((Writer.Class.relationToken e).toList ++ [' '])) ++ e.target.toList)
        ++ colonLabel e.label := by simp
  rw [hcons]
  refine isBlank_last_colonLabel (fun c hc => ?_) hl
  rw [List.getLast?_append_of_ne_nil _ ht.ne_nil] at hc
  exact hblank _ ht c (List.mem_of_mem_getLast? hc)

theorem content_classStart {n : Node α} (hw : IsWord n.id.toList) (hl : '\n' ∉ n.label.toList) :
    '\n' ∉ classStart n ∧ ∀ opens, IsContent (trim (classStart n ++ braceText opens)) := by
  constructor
  · have hid := hw.isName.lineFeed_notMem
    have hlab := Entity.notMem_encode (c := '\n') (by decide) hl
    rw [classStart, classLabel]
    split <;> simp [indent, hid, hlab]
  · intro opens
    rw [trim_classStart hw]
    exact isContent_cons (by decide) _

theorem content_relationLine {e : Edge α} (hs : IsWord e.source.toList)
    (ht : IsWord e.target.toList) (hl : ∀ l ∈ e.label, IsTidy l.toList) :
    '\n' ∉ relationLine e ∧ IsContent (trim (relationLine e)) := by
  constructor
  · have h1 := hs.isName.lineFeed_notMem
    have h2 := ht.isName.lineFeed_notMem
    have h3 := lineFeed_notMem_colonLabel fun l hm => (hl l hm).lineFeed_notMem
    have h4 : '\n' ∉ (Writer.Class.relationToken e).toList := by
      unfold Writer.Class.relationToken
      generalize e.isDashed = dashed
      generalize e.startHead = startHead
      generalize e.endHead = endHead
      cases startHead <;> cases endHead <;> cases dashed <;> decide
    simp [relationLine, indent, h1, h2, h3, h4]
  · rw [trim_relationLine hs ht hl]
    exact isContent_name hs.isName _

/-- What a relation between classes comes back as. -/
def classRelation (e : Edge α) : Relation := writtenRelation e.startHead e.endHead e.isDashed

/-- Every line of a written class diagram carries content, whatever its labels hold but for line
feeds. -/
theorem content_classBody (hword : ∀ id ∈ d.nodeIds, IsWord id.toList)
    (hlabel : ∀ n ∈ d.nodes, '\n' ∉ n.label.toList)
    (hmembers : ∀ n ∈ d.nodes, ∀ m ∈ membersOf n, IsMemberLine m)
    (hends : ∀ e ∈ d.edges, e.source ∈ d.nodeIds ∧ e.target ∈ d.nodeIds)
    (htidy : ∀ e ∈ d.edges, ∀ l ∈ e.label, IsTidy l.toList) :
    ∀ l ∈ Writer.Class.body d, '\n' ∉ l ∧ IsContent (trim l) := by
  intro l hl
  rcases List.mem_append.1 hl with hl | hl
  · rcases List.mem_append.1 hl with hl | hl
    · exact content_directionLines d.direction l hl
    · obtain ⟨n, hn, hl⟩ := List.mem_flatMap.1 hl
      rw [classLines_eq] at hl
      obtain ⟨h1, h2⟩ := content_classStart (hword _ (Diagram.mem_nodeIds hn)) (hlabel n hn)
      exact content_blockLines (hmembers n hn) h1 h2 l hl
  · obtain ⟨e, he, rfl⟩ := List.mem_map.1 hl
    exact content_relationLine (hword _ (hends e he).1) (hword _ (hends e he).2) (htidy e he)

theorem foldl_directionLines (direction : Direction) :
    ((directionLines direction).map trim).foldl Draft.readLine
        ({ diagram := { kind := .classes } } : Draft α)
      = { diagram := { kind := .classes, direction := direction } } := by
  cases direction <;> rfl

/-- The line of a class that is new adds this class. -/
theorem readLine_classStart {n : Node α} (hw : IsWord n.id.toList) (hl : ']' ∉ n.label.toList)
    (g : Diagram α) (hn : n.id ∉ g.nodeIds) :
    Draft.readLine { diagram := g } (trim (classStart n ++ braceText (opensBlock n)))
      = { diagram := { g with nodes := g.nodes ++ [declared n] }
          owner := if opensBlock n then some n.id else none } := by
  rw [trim_classStart hw, Draft.readLine]
  dsimp only
  rw [read_classLine hw hl]
  have hens : g.ensureNode (classNode n.id) = { g with nodes := g.nodes ++ [classNode n.id] } :=
    Diagram.ensureNode_of_notMem hn
  by_cases hlab : n.label = n.id
  · rw [if_pos hlab]
    simp only [Draft.apply, String.ofList_toList, hens]
    rw [declared, hlab]
    rfl
  · rw [if_neg hlab]
    simp only [Draft.apply, String.ofList_toList, hens]
    have hmod := Diagram.modifyNode_append (d := { g with nodes := g.nodes ++ [classNode n.id] })
      (n := classNode n.id) (fun m => { m with label := n.label }) rfl hn
    exact congrArg (Draft.mk · (if opensBlock n then some n.id else none)) hmod

/-- What is read from a written class diagram. -/
theorem parse_render_classes [Scalar α] {compact : Bool} (h : IsClassWritable d) :
    (Diagram.parse (d.render compact) : Except SyntaxError (Diagram α))
      = .ok (written .classes d.direction classRelation d) := by
  have hbody : d.bodyLines compact = Writer.Class.body d := by rw [Diagram.bodyLines, h.kind_eq]
  have hcontent := content_classBody h.isWord (fun n hn => (h.label_chars n hn).1) h.members h.ends
    h.isTidy
  obtain ⟨ls, htext, hparse⟩ := exists_parse_render compact (.inl rfl) h.kind_eq
    (by rw [hbody]; exact hcontent)
  have hsplit : Writer.Class.body d = directionLines d.direction
      ++ (d.nodes.flatMap (fun n => blockLines (classStart n) n) ++ d.edges.map relationLine) := by
    rw [Writer.Class.body, List.append_assoc, funext classLines_eq]
  have hfold := foldl_lines h.toIsWritable d.direction classStart relationLine classRelation
    (fun n hn g hg => readLine_classStart (h.isWord _ (Diagram.mem_nodeIds hn))
      (h.label_chars n hn).2 g hg)
    (fun e he => by
      have hs := h.isWord _ (h.ends e he).1
      have ht := h.isWord _ (h.ends e he).2
      rw [trim_relationLine hs ht (h.isTidy e he)]
      exact read_relationLine hs ht (h.isTidy e he) (h.source_ne e he))
  rw [hparse, parse_eq_foldl, htext, hbody, hsplit, List.map_append, List.foldl_append,
    foldl_directionLines, hfold]

theorem relationToken_relationEdge (e : Edge α) (i : Nat) :
    Writer.Class.relationToken (relationEdge i
      ⟨e.source.toList, e.target.toList, classRelation e, e.label⟩ : Edge α)
      = Writer.Class.relationToken e := by
  unfold classRelation Writer.Class.relationToken
  rw [isDashed_relationEdge, relationEdge]
  dsimp only
  generalize e.isDashed = dashed
  generalize e.startHead = startHead
  generalize e.endHead = endHead
  cases startHead <;> cases endHead <;> cases dashed <;> rfl

/-- The diagram that is read from a written class diagram is written the same. -/
theorem render_written_classes [Scalar α] {compact : Bool} (hk : d.kind = .classes) :
    (written .classes d.direction classRelation d).render compact = d.render compact := by
  refine Diagram.render_congr (by rw [Diagram.header, Diagram.header, hk]; rfl) ?_
  rw [Diagram.bodyLines, Diagram.bodyLines, hk]
  show Writer.Class.body _ = Writer.Class.body d
  have hnodes : (d.nodes.map writtenNode).flatMap classLines = d.nodes.flatMap classLines := by
    rw [List.flatMap_map]
    rfl
  have hedges : (relationEdges classRelation 0 d.edges).map relationLine
      = d.edges.map relationLine := by
    refine map_relationEdges _ _ (fun e _ i => ?_) 0
    rw [relationLine, relationToken_relationEdge, relationLine]
    simp [relationEdge]
  rw [Writer.Class.body, Writer.Class.body, written, hnodes, hedges]

/-! ## Entities -/

/-- An entity diagram that comes back from its text. -/
structure IsEntityWritable (d : Diagram α) : Prop extends IsWritable .er d where
  label_eq : ∀ n ∈ d.nodes, n.label = n.id
  node_ne : ∀ id ∈ d.nodeIds, id ≠ "direction"
  unrelated : ∀ n ∈ d.nodes, membersOf n = [] → classRelation? n.id.toList = none

/-- The line of an entity without its brace. -/
def entityStart (n : Node α) : List Char := indent ++ n.id.toList

theorem trim_entityStart {n : Node α} (hw : IsName n.id.toList) (opens : Bool) :
    trim (entityStart n ++ braceText opens) = n.id.toList ++ braceText opens := by
  have hblank : ∀ c ∈ n.id.toList, isBlank c = false := fun c hc =>
    isBlank_of_isNameChar (hw.isNameChar c hc)
  have hbrace : isBlank '\x7b' = false := by decide
  rw [entityStart, List.append_assoc, trim_indent]
  cases opens with
  | false => exact trim_eq_self_of_forall (by simpa [braceText] using hblank)
  | true =>
    refine trim_append_eq_self hw.ne_nil (fun c hc => hblank c (List.mem_of_mem_head? hc))
      (by simp [braceText]) ?_
    simp [braceText, hbrace]

theorem content_entityStart {n : Node α} (hw : IsName n.id.toList) :
    '\n' ∉ entityStart n ∧ ∀ opens, IsContent (trim (entityStart n ++ braceText opens)) := by
  refine ⟨by simp [entityStart, indent, hw.lineFeed_notMem], fun opens => ?_⟩
  rw [trim_entityStart hw]
  exact isContent_name hw _

theorem trim_entityRelationLine {e : Edge α} (hs : IsName e.source.toList) :
    trim (Writer.Entity.relationLine e) = e.source.toList ++ ' ' :: (cardinalityText e ++
        ' ' :: (e.target.toList ++ quotedLabel e.label)) := by
  have hline : Writer.Entity.relationLine e = indent ++ (e.source.toList ++
      ' ' :: (cardinalityText e ++ ' ' :: (e.target.toList ++ quotedLabel e.label))) := by
    have hdash : (if e.isDashed then ".." else "--").toList = lineText e.isDashed := by
      cases e.isDashed <;> rfl
    simp [Writer.Entity.relationLine, hdash, cardinalityText, quotedLabel]
  have hq : isBlank '"' = false := by decide
  rw [hline, trim_indent]
  refine trim_append_eq_self hs.ne_nil
    (fun c hc => isBlank_of_isNameChar (hs.isNameChar c (List.mem_of_mem_head? hc))) (by simp) ?_
  have hlast : (' ' :: (cardinalityText e ++ ' ' :: (e.target.toList ++ quotedLabel e.label)))
      = (' ' :: (cardinalityText e ++ ' ' :: (e.target.toList
        ++ ' ' :: ':' :: ' ' :: '"' :: Entity.encode (e.label.getD "").toList))) ++ ['"'] := by
    simp [quotedLabel]
  rw [hlast, List.getLast?_append_of_ne_nil _ (by simp)]
  simp [hq]

theorem content_entityRelationLine {e : Edge α} (hs : IsName e.source.toList)
    (ht : IsName e.target.toList) (hl : ∀ l ∈ e.label, '\n' ∉ l.toList) :
    '\n' ∉ Writer.Entity.relationLine e ∧ IsContent (trim (Writer.Entity.relationLine e)) := by
  constructor
  · have hlabel : '\n' ∉ Entity.encode (e.label.getD "").toList := by
      refine Entity.notMem_encode (by decide) ?_
      cases he : e.label with
      | none => simp
      | some l => exact hl l he
    have hstart : '\n' ∉ (Writer.Entity.startToken e.startHead).toList := by
      cases e.startHead <;> decide
    have hend : '\n' ∉ (Writer.Entity.endToken e.endHead).toList := by
      cases e.endHead <;> decide
    have hdash : '\n' ∉ (if e.isDashed then ".." else "--").toList := by
      cases e.isDashed <;> decide
    rw [Writer.Entity.relationLine]
    simp only [List.mem_append, not_or]
    refine ⟨⟨⟨⟨⟨⟨⟨⟨⟨⟨?_, hs.lineFeed_notMem⟩, ?_⟩, hstart⟩, hdash⟩, hend⟩, ?_⟩, ht.lineFeed_notMem⟩,
      ?_⟩, hlabel⟩, ?_⟩ <;> decide
  · rw [trim_entityRelationLine hs]
    exact isContent_name hs _

theorem content_entityBody (h : IsEntityWritable d) :
    ∀ l ∈ Writer.Entity.body d, '\n' ∉ l ∧ IsContent (trim l) := by
  intro l hl
  rcases List.mem_append.1 hl with hl | hl
  · obtain ⟨n, hn, hl⟩ := List.mem_flatMap.1 hl
    obtain ⟨h1, h2⟩ := content_entityStart (h.isName _ (Diagram.mem_nodeIds hn))
    exact content_blockLines (h.members n hn) h1 h2 l hl
  · obtain ⟨e, he, rfl⟩ := List.mem_map.1 hl
    exact content_entityRelationLine (h.isName _ (h.ends e he).1) (h.isName _ (h.ends e he).2)
      fun x hx => (h.label e he x hx).2

/-- What a relation between entities comes back as. -/
def entityRelation (e : Edge α) : Relation :=
  ⟨writtenCardinality e.startHead, writtenCardinality e.endHead, e.isDashed⟩

/-- The line of an entity that is new adds this entity. -/
theorem readLine_entityStart {n : Node α} (hw : IsName n.id.toList) (hdir : n.id ≠ "direction")
    (hrel : membersOf n = [] → classRelation? n.id.toList = none) (hlabel : n.label = n.id)
    (g : Diagram α) (hn : n.id ∉ g.nodeIds) :
    Draft.readLine { diagram := g } (trim (entityStart n ++ braceText (opensBlock n)))
      = { diagram := { g with nodes := g.nodes ++ [declared n] }
          owner := if opensBlock n then some n.id else none } := by
  have hopens : opensBlock n = false → classRelation? n.id.toList = none := by
    intro ho
    exact hrel (by simpa [opensBlock] using ho)
  have hens : g.ensureNode (classNode n.id) = { g with nodes := g.nodes ++ [classNode n.id] } :=
    Diagram.ensureNode_of_notMem hn
  rw [trim_entityStart hw, Draft.readLine]
  dsimp only
  rw [read_entityLine hw (fun h => hdir (String.toList_inj.1 h)) _ hopens]
  simp only [Draft.apply, String.ofList_toList, hens]
  rw [declared, hlabel]
  rfl

/-- What is read from a written entity diagram. -/
theorem parse_render_er [Scalar α] {compact : Bool} (h : IsEntityWritable d) :
    (Diagram.parse (d.render compact) : Except SyntaxError (Diagram α))
      = .ok (written .er .down entityRelation d) := by
  have hbody : d.bodyLines compact = Writer.Entity.body d := by rw [Diagram.bodyLines, h.kind_eq]
  obtain ⟨ls, htext, hparse⟩ := exists_parse_render compact (.inr rfl) h.kind_eq
    (by rw [hbody]; exact content_entityBody h)
  have hfold := foldl_lines h.toIsWritable .down entityStart Writer.Entity.relationLine entityRelation
    (fun n hn g hg => readLine_entityStart (h.isName _ (Diagram.mem_nodeIds hn))
      (h.node_ne _ (Diagram.mem_nodeIds hn)) (h.unrelated n hn) (h.label_eq n hn) g hg)
    (fun e he => by
      have hs := h.isName _ (h.ends e he).1
      have ht := h.isName _ (h.ends e he).2
      rw [trim_entityRelationLine hs]
      exact read_entityRelationLine hs ht (fun l hl => (h.label e he l hl).1) (h.source_ne e he))
  rw [hparse, parse_eq_foldl, htext, hbody]
  exact congrArg (fun draft : Draft α => Except.ok draft.diagram) hfold

/-- The diagram that is read from a written entity diagram is written the same. -/
theorem render_written_er [Scalar α] {compact : Bool} (hk : d.kind = .er) :
    (written .er .down entityRelation d).render compact = d.render compact := by
  refine Diagram.render_congr (by rw [Diagram.header, Diagram.header, hk]; rfl) ?_
  rw [Diagram.bodyLines, Diagram.bodyLines, hk]
  show Writer.Entity.body _ = Writer.Entity.body d
  have hnodes : (d.nodes.map writtenNode).flatMap
        (fun n => blockLines (indent ++ n.id.toList) n)
      = d.nodes.flatMap fun n => blockLines (indent ++ n.id.toList) n := by
    rw [List.flatMap_map]
    rfl
  have hedges : (relationEdges entityRelation 0 d.edges).map Writer.Entity.relationLine
      = d.edges.map Writer.Entity.relationLine := by
    refine map_relationEdges _ _ (fun e _ i => ?_) 0
    have hdashed : (relationEdge i ⟨e.source.toList, e.target.toList, entityRelation e, e.label⟩
        : Edge α).isDashed = e.isDashed := isDashed_relationEdge i _
    have hstart : Writer.Entity.startToken (writtenCardinality e.startHead)
        = Writer.Entity.startToken e.startHead := by
      cases e.startHead <;> rfl
    have hend : Writer.Entity.endToken (writtenCardinality e.endHead)
        = Writer.Entity.endToken e.endHead := by
      cases e.endHead <;> rfl
    rw [Writer.Entity.relationLine, hdashed, Writer.Entity.relationLine]
    simp [relationEdge, entityRelation, hstart, hend]
  rw [Writer.Entity.body, Writer.Entity.body, written, hnodes, hedges]

end DiagramBoard.Grammar.Class
