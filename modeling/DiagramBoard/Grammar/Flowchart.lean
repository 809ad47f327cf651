/-
DiagramBoard.Grammar.Flowchart — the statements of a flowchart.

A statement is a chain of node groups with a link between each two: `a & b --> c --- d[Label]`.
Links are arrow tokens with an optional `|label|`, or a label between an opening and a closing
token.  A node is its id with an optional label in the brackets of its shape.

Main statements: a node, a node group and a chain leave less than they were given
(`length_of_node?`, `length_of_nodeGroup?`, `length_of_chain?`), and a link no more
(`length_of_link?`); so chains of any length are read.
-/
import DiagramBoard.Diagram.Basic
import DiagramBoard.Grammar.Line

namespace DiagramBoard.Grammar.Flowchart

open Text

/-! ## Parts of a statement -/

/-- A node as one statement mentions it. -/
structure NodeMention where
  id : String
  label : Option String := none
  shape : Option Shape := none
deriving DecidableEq, Repr

/-- How the line of a link is drawn. -/
inductive Stroke
  | normal | dashed | thick
deriving DecidableEq, Repr

/-- A link between two node groups. -/
structure Link where
  startHead : ArrowHead
  endHead : ArrowHead
  stroke : Stroke
  label : Option String := none
deriving DecidableEq, Repr

namespace Link

/-- A link with a head at its end. -/
def arrow (stroke : Stroke) : Link := ⟨.none, .arrow, stroke, none⟩

/-- A link without heads. -/
def headless (stroke : Stroke) : Link := ⟨.none, .none, stroke, none⟩

/-- A link with heads at both ends. -/
def both (stroke : Stroke) : Link := ⟨.arrow, .arrow, stroke, none⟩

/-- A link with a label. -/
def labelled (l : Link) (label : Option String) : Link := { l with label := label }

end Link

/-- Node groups with a link before each but the first. -/
structure Statement where
  first : List NodeMention
  next : List (Link × List NodeMention)
deriving DecidableEq, Repr

/-! ## Nodes -/

/-- The characters of an id: word characters, and hyphens between them.  A hyphen that no word
character follows ends the id, so that a link may follow without a space. -/
def takeId (started : Bool) : List Char → List Char × List Char
  | [] => ([], [])
  | c :: r =>
    if isWordChar c || (c == '-' && started && r.head?.any isWordChar) then
      let p := takeId true r
      (c :: p.1, p.2)
    else ([], c :: r)

/-- An id. -/
def id? (s : List Char) : Option (List Char × List Char) :=
  match takeId false s with
  | ([], _) => none
  | p => some p

/-- The brackets of the shapes, in the order in which they are tried. -/
def brackets : List (String × String × Shape) :=
  [("([", "])", .stadium), ("((", "))", .circle), ("\x7b\x7b", "\x7d\x7d", .hexagon),
    ("[/", "/]", .parallelogram), ("(", ")", .rounded), ("\x7b", "\x7d", .diamond),
    ("[", "]", .rectangle)]

/-- A label inside brackets, in quotes or up to the closing bracket. -/
def bracketed? (opening closing : String) (s : List Char) : Option (List Char × List Char) :=
  (after? opening s).bind fun r =>
    match r with
    | '"' :: _ =>
      (quoted? r).bind fun p => (after? closing p.2).map fun t => (Entity.decode (trim p.1), t)
    | _ => (cutAt? closing.toList r).map fun p => (Entity.decode (trim p.1), p.2)

/-- A label inside the brackets of a shape. -/
def shaped? (s : List Char) : Option ((Shape × List Char) × List Char) :=
  brackets.findSome? fun b => (bracketed? b.1 b.2.1 s).map fun p => ((b.2.2, p.1), p.2)

/-- The shape and label behind an id.  Brackets that are not closed are skipped up to the next
blank and make a rectangle. -/
def shapeOf (id : List Char) (s : List Char) : NodeMention × List Char :=
  let bare : NodeMention := { id := String.ofList id }
  match s with
  | '[' :: _ | '(' :: _ | '\x7b' :: _ =>
    match shaped? s with
    | some ((shape, label), r) =>
      ({ bare with shape := some shape,
                   label := some (String.ofList (if label = [] then id else label)) }, r)
    | none => ({ bare with shape := some .rectangle }, s.dropWhile fun c => !isBlank c)
  | _ => (bare, s)

/-- A style class behind a node, which says nothing here. -/
def styleClass? (s : List Char) : Option (List Char × List Char) :=
  (after? ":::" s).bind name?

/-- A node. -/
def node? (s : List Char) : Option (NodeMention × List Char) :=
  (id? s).map fun p =>
    let q := shapeOf p.1 p.2
    (q.1, (optionally styleClass? q.2).2)

/-! ## Links -/

/-- The arrow tokens, in the order in which they are tried. -/
def arrowTokens : List (String × Link) :=
  [("<-->", .both .normal), ("<-.->", .both .dashed), ("<==>", .both .thick),
    ("-.->", .arrow .dashed), ("-.-", .headless .dashed), ("==>", .arrow .thick),
    ("===", .headless .thick), ("--->", .arrow .normal), ("-->", .arrow .normal),
    ("----", .headless .normal), ("---", .headless .normal), ("->", .arrow .normal)]

/-- The tokens around a label inside a link, in the order in which they are tried. -/
def labelTokens : List (String × String × Link) :=
  [("--", "-->", .arrow .normal), ("--", "---", .headless .normal), ("-.", ".->", .arrow .dashed),
    ("-.", ".-", .headless .dashed), ("==", "==>", .arrow .thick), ("==", "===", .headless .thick)]

/-- The label of a link from the text that holds it: nothing but blanks is none. -/
def linkLabel (s : List Char) : Option String :=
  match stripQuotes (trim s) with
  | [] => none
  | t => some (String.ofList (Entity.decode t))

/-- A label between bars, which may hold bars if it is in quotes. -/
def barLabel? (s : List Char) : Option (Option String × List Char) :=
  (after? "|" s).bind fun r =>
    let inQuotes := (quoted? (skipSpaces r)).bind fun p =>
      (after? "|" (skipSpaces p.2)).map fun t => (linkLabel p.1, t)
    inQuotes.or ((cutAt? ['|'] r).map fun p => (linkLabel p.1, p.2))

/-- A label between bars behind spaces. -/
def spacedBarLabel? (s : List Char) : Option (Option String × List Char) :=
  barLabel? (skipSpaces s)

/-- A link with a label between its two tokens. -/
def labelledLink? (opening closing : String) (link : Link) (s : List Char) :
    Option (Link × List Char) :=
  (after? opening s).bind fun r =>
    (skipSomeSpaces? r).bind fun r =>
      (cutAfterSome? closing.toList r).map fun p => (link.labelled (linkLabel p.1), p.2)

/-- A link. -/
def link? (s : List Char) : Option (Link × List Char) :=
  (labelTokens.findSome? fun t => labelledLink? t.1 t.2.1 t.2.2 s).or
    ((token? arrowTokens s).map fun p =>
      let q := optionally spacedBarLabel? p.2
      (p.1.labelled q.1.join, q.2))

/-! ## What the parts leave -/

theorem length_takeId_le (started : Bool) (s : List Char) :
    (takeId started s).2.length ≤ s.length := by
  fun_induction takeId started s with
  | case1 => simp
  | case2 _ c r _ _ ih => simpa using Nat.le_succ_of_le ih
  | case3 => simp

theorem length_takeId_lt {started : Bool} {s : List Char} (h : (takeId started s).1 ≠ []) :
    (takeId started s).2.length < s.length := by
  cases s with
  | nil => simp [takeId] at h
  | cons c r =>
    rw [takeId] at h ⊢
    split
    · exact Nat.lt_succ_of_le (length_takeId_le true r)
    · simp_all

theorem length_of_id? {s w r : List Char} (h : id? s = some (w, r)) : r.length < s.length := by
  have hlt := @length_takeId_lt false s
  unfold id? at h
  grind

theorem length_of_bracketed? {o c : String} {s w r : List Char}
    (h : bracketed? o c s = some (w, r)) : r.length ≤ s.length := by
  obtain ⟨t, ht, h⟩ := Option.bind_eq_some_iff.1 h
  refine Nat.le_trans ?_ (length_of_after? ht)
  split at h
  · obtain ⟨p, hp, h⟩ := Option.bind_eq_some_iff.1 h
    obtain ⟨u, hu, heq⟩ := Option.map_eq_some_iff.1 h
    obtain rfl : u = r := by simpa using (Prod.mk.inj heq).2
    exact Nat.le_trans (length_of_after? hu) (length_of_quoted? hp)
  · obtain ⟨p, hp, heq⟩ := Option.map_eq_some_iff.1 h
    obtain rfl : p.2 = r := by simpa using (Prod.mk.inj heq).2
    exact length_of_cutAt? hp

theorem length_of_shaped? {s r : List Char} {p : Shape × List Char}
    (h : shaped? s = some (p, r)) : r.length ≤ s.length := by
  obtain ⟨b, -, hb⟩ := List.exists_of_findSome?_eq_some h
  obtain ⟨q, hq, heq⟩ := Option.map_eq_some_iff.1 hb
  obtain rfl : q.2 = r := by simpa using (Prod.mk.inj heq).2
  exact length_of_bracketed? hq

theorem length_shapeOf_le (id s : List Char) : (shapeOf id s).2.length ≤ s.length := by
  have hd := length_dropWhile_le (fun c => !isBlank c) s
  have hs := @length_of_shaped? s
  unfold shapeOf
  split <;> (try exact Nat.le_refl _) <;> split <;> first | exact hs ‹_› | exact hd

theorem length_of_styleClass? {s w r : List Char} (h : styleClass? s = some (w, r)) :
    r.length ≤ s.length := by
  obtain ⟨t, ht, hr⟩ := Option.bind_eq_some_iff.1 h
  exact Nat.le_trans (Nat.le_of_lt (length_of_takeSome? hr)) (length_of_after? ht)

theorem length_of_node? {s r : List Char} {n : NodeMention} (h : node? s = some (n, r)) :
    r.length < s.length := by
  obtain ⟨p, hp, heq⟩ := Option.map_eq_some_iff.1 h
  obtain rfl := (Prod.mk.inj heq).2
  exact Nat.lt_of_le_of_lt
    (Nat.le_trans (length_optionally_le length_of_styleClass? _) (length_shapeOf_le p.1 p.2))
    (length_of_id? hp)

theorem length_of_barLabel? {s r : List Char} {l : Option String}
    (h : barLabel? s = some (l, r)) : r.length ≤ s.length := by
  obtain ⟨t, ht, h⟩ := Option.bind_eq_some_iff.1 h
  refine Nat.le_trans ?_ (length_of_after? ht)
  rcases Option.or_eq_some_iff.1 h with h | ⟨-, h⟩
  · obtain ⟨p, hp, h⟩ := Option.bind_eq_some_iff.1 h
    obtain ⟨u, hu, heq⟩ := Option.map_eq_some_iff.1 h
    obtain rfl : u = r := by simpa using (Prod.mk.inj heq).2
    exact Nat.le_trans (length_of_after? hu) (Nat.le_trans (length_skipSpaces_le _)
      (Nat.le_trans (length_of_quoted? hp) (length_skipSpaces_le t)))
  · obtain ⟨p, hp, heq⟩ := Option.map_eq_some_iff.1 h
    obtain rfl : p.2 = r := by simpa using (Prod.mk.inj heq).2
    exact length_of_cutAt? hp

theorem length_of_spacedBarLabel? {s r : List Char} {l : Option String}
    (h : spacedBarLabel? s = some (l, r)) : r.length ≤ s.length :=
  Nat.le_trans (length_of_barLabel? h) (length_skipSpaces_le s)

theorem length_of_labelledLink? {o c : String} {l k : Link} {s r : List Char}
    (h : labelledLink? o c l s = some (k, r)) : r.length ≤ s.length := by
  obtain ⟨t, ht, h⟩ := Option.bind_eq_some_iff.1 h
  obtain ⟨u, hu, h⟩ := Option.bind_eq_some_iff.1 h
  obtain ⟨p, hp, heq⟩ := Option.map_eq_some_iff.1 h
  obtain rfl : p.2 = r := by simpa using (Prod.mk.inj heq).2
  exact Nat.le_trans (length_of_cutAfterSome? hp)
    (Nat.le_trans (length_of_skipSomeSpaces? hu) (length_of_after? ht))

theorem length_of_link? {s r : List Char} {l : Link} (h : link? s = some (l, r)) :
    r.length ≤ s.length := by
  rcases Option.or_eq_some_iff.1 h with h | ⟨-, h⟩
  · obtain ⟨t, -, ht⟩ := List.exists_of_findSome?_eq_some h
    exact length_of_labelledLink? ht
  · obtain ⟨p, hp, heq⟩ := Option.map_eq_some_iff.1 h
    obtain rfl := (Prod.mk.inj heq).2
    exact Nat.le_trans (length_optionally_le length_of_spacedBarLabel? _) (length_of_token? hp)

/-! ## Statements -/

/-- Another node of a node group, behind an ampersand. -/
def joinedNode? (s : List Char) : Option (NodeMention × List Char) :=
  (after? "&" (skipSpaces s)).bind fun r => node? (skipSpaces r)

theorem length_of_joinedNode? {s r : List Char} {n : NodeMention}
    (h : joinedNode? s = some (n, r)) : r.length < s.length := by
  obtain ⟨t, ht, h⟩ := Option.bind_eq_some_iff.1 h
  exact Nat.lt_of_lt_of_le (length_of_node? h) (Nat.le_trans (length_skipSpaces_le t)
    (Nat.le_trans (length_of_after? ht) (length_skipSpaces_le s)))

/-- The nodes joined to a node group, and what follows it. -/
def joinedNodes (s : List Char) : List NodeMention × List Char :=
  match h : joinedNode? s with
  | none => ([], s)
  | some (n, r) =>
    have := length_of_joinedNode? h
    let p := joinedNodes r
    (n :: p.1, p.2)
termination_by s.length

/-- A node group. -/
def nodeGroup? (s : List Char) : Option (List NodeMention × List Char) :=
  (node? s).map fun p =>
    let q := joinedNodes p.2
    (p.1 :: q.1, q.2)

theorem length_joinedNodes_le (s : List Char) : (joinedNodes s).2.length ≤ s.length := by
  fun_induction joinedNodes s with
  | case1 => exact Nat.le_refl _
  | case2 _ _ _ _ hlt _ ih => exact Nat.le_of_lt (Nat.lt_of_le_of_lt ih hlt)

theorem length_of_nodeGroup? {s r : List Char} {ns : List NodeMention}
    (h : nodeGroup? s = some (ns, r)) : r.length < s.length := by
  obtain ⟨p, hp, heq⟩ := Option.map_eq_some_iff.1 h
  obtain rfl := (Prod.mk.inj heq).2
  exact Nat.lt_of_le_of_lt (length_joinedNodes_le _) (length_of_node? hp)

/-- The links of a statement and the node groups behind them.  A link without one behind it is a
fault; anything else that is no link ends the statement. -/
def chain? (s : List Char) : Option (List (Link × List NodeMention) × List Char) :=
  match hl : link? (skipSpaces s) with
  | none => some ([], s)
  | some (l, r) =>
    match hg : nodeGroup? (skipSpaces r) with
    | none => none
    | some (ns, t) =>
      have : t.length < s.length :=
        Nat.lt_of_lt_of_le (length_of_nodeGroup? hg) (Nat.le_trans (length_skipSpaces_le r)
          (Nat.le_trans (length_of_link? hl) (length_skipSpaces_le s)))
      (chain? t).map fun p => ((l, ns) :: p.1, p.2)
termination_by s.length

/-- A statement, and what follows it. -/
def statement? (s : List Char) : Option (Statement × List Char) :=
  (nodeGroup? s).bind fun p => (chain? p.2).map fun q => (⟨p.1, q.1⟩, q.2)

/-! ## Lines -/

/-- What a line of a flowchart is. -/
inductive Item
  /-- A subgraph opens, with this title. -/
  | opening (title : List Char)
  /-- The innermost subgraph closes. -/
  | closing
  /-- A directive on looks, which says nothing here. -/
  | directive
  | statement (stmt : Statement)
  /-- A statement with something behind it. -/
  | trailing (rest : List Char)
  /-- Anything else. -/
  | unreadable
deriving DecidableEq, Repr

/-- The words that start a directive. -/
def directiveWords : List String :=
  ["style", "class", "classDef", "linkStyle", "click", "direction"]

/-- Whether a line is a directive.  A directive's word in front of a link is the id of a node. -/
def isDirective (text : List Char) : Bool :=
  directiveWords.any fun w => match afterKeyword? w text with
    | none | some [] => false
    | some r => (link? r).isNone

/-- A line without the semicolons at its end. -/
def withoutSemicolons (text : List Char) : List Char :=
  trimEnd ((text.reverse.dropWhile (· == ';')).reverse)

/-- Reads a line. -/
def Item.read (text : List Char) : Item :=
  match afterKeyword? "subgraph" text with
  | some title => .opening title
  | none =>
    if text = "end".toList || text = "end;".toList then .closing
    else if isDirective text then .directive
    else match statement? (withoutSemicolons text) with
      | none => .unreadable
      | some (stmt, r) => match trim r with
        | [] => .statement stmt
        | rest => .trailing rest

end DiagramBoard.Grammar.Flowchart
