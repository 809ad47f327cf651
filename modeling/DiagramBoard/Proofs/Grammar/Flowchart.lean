/-
DiagramBoard.Proofs.Grammar.Flowchart — the statements of a flowchart come back from the text that
is written for them.

Main statements: a written node is read whole (`node?_declaration`), as is a written link
(`link?_written`), so each written line is read as the statement that it was written for
(`read_nodeLine`, `read_edgeLine`).
-/
import DiagramBoard.Proofs.Writer.Lines
import DiagramBoard.Writer.Flowchart

namespace DiagramBoard

/-! ## Labels without the blanks around them -/

/-- A label without the blanks around it. -/
def trimmed (label : String) : String := String.ofList (Text.trim label.toList)

variable {α : Type}

/-- A node with its label trimmed. -/
def Node.trimmed (n : Node α) : Node α := { n with label := DiagramBoard.trimmed n.label }

/-- An edge with its label trimmed. -/
def Edge.trimmed (e : Edge α) : Edge α := { e with label := e.label.map DiagramBoard.trimmed }

theorem trimmed_eq_self {label : String} (h : Grammar.IsTidy label.toList) : trimmed label = label := by
  rw [trimmed, h.trimmed, String.ofList_toList]

theorem Node.trimmed_eq_self {n : Node α} (h : Grammar.IsTidy n.label.toList) : n.trimmed = n := by
  rw [trimmed, DiagramBoard.trimmed_eq_self h]

theorem Edge.trimmed_eq_self {e : Edge α} (h : ∀ l ∈ e.label, Grammar.IsTidy l.toList) :
    e.trimmed = e := by
  have hlabel : e.label.map DiagramBoard.trimmed = e.label := by
    cases hl : e.label with
    | none => rfl
    | some l => rw [Option.map_some, DiagramBoard.trimmed_eq_self (h l hl)]
  rw [trimmed, hlabel]

end DiagramBoard

namespace DiagramBoard.Grammar.Flowchart

open Text
open Writer (indent trim_indent)
open Writer.Flowchart (markedChars isPlainLabel labelText bracketsOf declaration linkToken strokeOf
  isPlainNode)

variable {α : Type}

/-! ## Ids -/

theorem append_takeId (started : Bool) (s : List Char) :
    (takeId started s).1 ++ (takeId started s).2 = s := by
  fun_induction takeId started s with
  | case1 => rfl
  | case2 _ c r _ _ ih => simpa using ih
  | case3 => rfl

theorem isNameChar_of_mem_takeId (started : Bool) (s : List Char) :
    ∀ c ∈ (takeId started s).1, isNameChar c = true := by
  fun_induction takeId started s with
  | case1 => simp
  | case2 started c r hc _ ih =>
    intro x hx
    rcases List.mem_cons.1 hx with rfl | hx
    · rw [isNameChar]
      rcases Bool.or_eq_true_iff.1 hc with h | h
      · simp [h]
      · simp_all
    · exact ih x hx
  | case3 => simp

/-- What was taken is taken again from itself. -/
theorem takeId_fst (started : Bool) (s : List Char) :
    takeId started (takeId started s).1 = ((takeId started s).1, []) := by
  fun_induction takeId started s with
  | case1 => rfl
  | case2 started c r hc p ih =>
    have hc' : (isWordChar c || (c == '-' && started && p.1.head?.any isWordChar)) = true := by
      rcases Bool.or_eq_true_iff.1 hc with h | h
      · simp [h]
      · -- the word character behind a hyphen is taken as well
        simp only [Bool.and_eq_true] at h
        obtain ⟨⟨h1, h2⟩, h3⟩ := h
        cases r with
        | nil => simp at h3
        | cons d r =>
          have hd : isWordChar d = true := by simpa using h3
          have hp : p.1 = d :: (takeId true r).1 := by simp [p, takeId, hd]
          simp [h1, h2, hp, hd]
    have ih' : takeId true p.1 = (p.1, []) := ih
    show takeId started (c :: p.1) = (c :: p.1, [])
    rw [takeId, if_pos hc']
    simp only [ih']
  | case3 => rfl

/-- What stands in front of a character that belongs to no id is taken as it is taken alone. -/
theorem takeId_append {started : Bool} {w r : List Char} (h : takeId started w = (w, []))
    (hr : ∀ c ∈ r.head?, isNameChar c = false) : takeId started (w ++ r) = (w, r) := by
  induction w generalizing started with
  | nil =>
    cases r with
    | nil => rfl
    | cons c r =>
      have hc := hr c rfl
      rw [isNameChar, Bool.or_eq_false_iff] at hc
      have h2 : (c == '-') = false := by simpa using hc.2
      rw [List.nil_append, takeId]
      simp [hc.1, h2]
  | cons c w ih =>
    rw [takeId] at h
    split at h
    · rename_i hc
      have htail : takeId true w = (w, []) := by
        obtain ⟨h1, h2⟩ := Prod.mk.inj h
        exact Prod.ext (List.cons.inj h1).2 h2
      have hc' : (isWordChar c || (c == '-' && started && (w ++ r).head?.any isWordChar)) = true := by
        rcases Bool.or_eq_true_iff.1 hc with h | h
        · simp [h]
        · cases w with
          | nil => simp at h
          | cons d w => simpa using Or.inr h
      rw [List.cons_append, takeId, if_pos hc', ih htail]
    · simp at h

/-- An id: word characters, and hyphens between them. -/
structure IsId (w : List Char) : Prop where
  ne_nil : w ≠ []
  takeId_eq : takeId false w = (w, [])

theorem isId_of_id? {s w r : List Char} (h : id? s = some (w, r)) : IsId w := by
  have hfst := takeId_fst false s
  unfold id? at h
  split at h
  · simp at h
  · rename_i hne
    obtain ⟨rfl, rfl⟩ := Prod.mk.inj (Option.some.inj h)
    exact ⟨fun hn => hne _ (Prod.ext hn rfl), hfst⟩

theorem id?_append {w r : List Char} (hw : IsId w) (hr : ∀ c ∈ r.head?, isNameChar c = false) :
    id? (w ++ r) = some (w, r) := by
  have h := takeId_append hw.takeId_eq hr
  unfold id?
  split
  · rename_i heq
    rw [h] at heq
    exact absurd (Prod.mk.inj heq).1 hw.ne_nil
  · rw [h]

/-- An id starts with a word character. -/
theorem IsId.exists_cons {w : List Char} (hw : IsId w) : ∃ c t, w = c :: t ∧ isWordChar c = true := by
  cases w with
  | nil => exact absurd rfl hw.ne_nil
  | cons c t =>
    refine ⟨c, t, rfl, ?_⟩
    have h := hw.takeId_eq
    rw [takeId] at h
    split at h
    · rename_i hc
      simpa using hc
    · simp at h

theorem IsId.isName {w : List Char} (hw : IsId w) : IsName w := by
  refine ⟨hw.ne_nil, fun c hc => ?_⟩
  have h := hw.takeId_eq
  exact isNameChar_of_mem_takeId false w c (by rwa [h])

/-- A word is an id. -/
theorem isId_of_isWord {w : List Char} (hw : IsWord w) : IsId w := by
  have : ∀ (started : Bool) (w : List Char), (∀ c ∈ w, isWordChar c = true) →
      takeId started w = (w, []) := by
    intro started w
    induction w generalizing started with
    | nil => exact fun _ => rfl
    | cons c w ih =>
      intro h
      rw [takeId, if_pos (by simp [h c List.mem_cons_self]),
        ih true fun d hd => h d (List.mem_cons_of_mem _ hd)]
  exact ⟨hw.ne_nil, this false w hw.isWordChar⟩

/-! ## Labels -/

theorem decode_eq_self {s : List Char} (h : '#' ∉ s) : Entity.decode s = s := by
  induction s with
  | nil => rfl
  | cons c s ih =>
    rw [List.mem_cons, not_or] at h
    rw [Entity.decode_cons_of_ne (Ne.symm h.1), ih h.2]

/-- A label that stands without quotes has none of the marked characters. -/
theorem notMem_of_isPlainLabel {l : List Char} (h : isPlainLabel l = true) {c : Char}
    (hc : c ∈ markedChars) : c ∉ l := by
  intro hm
  rw [isPlainLabel, Bool.and_eq_true] at h
  have := h.2
  rw [Bool.not_eq_true', List.any_eq_false] at this
  exact this c hm (by simpa using hc)

/-- A label is written in quotes, or as it is where it can stand so. -/
theorem labelText_cases (compact : Bool) (l : String) :
    labelText compact l = '"' :: (Entity.encode l.toList ++ ['"'])
      ∨ labelText compact l = l.toList ∧ isPlainLabel l.toList = true := by
  unfold labelText
  split
  · rename_i h
    exact .inr ⟨rfl, (Bool.and_eq_true_iff.1 h).2⟩
  · exact .inl rfl

/-- What can stand without quotes is tidy but for line feeds. -/
theorem of_isPlainLabel {l : List Char} (h : isPlainLabel l = true) : l ≠ [] ∧ trim l = l := by
  rw [isPlainLabel, Bool.and_eq_true, Bool.and_eq_true] at h
  exact ⟨of_decide_eq_true h.1.1, of_decide_eq_true h.1.2⟩

/-- A written label starts with a quote or with no marked character. -/
theorem labelText_cons (compact : Bool) (l : String) :
    ∃ c t, labelText compact l = c :: t ∧ isBlank c = false ∧ (c ∈ markedChars → c = '"') := by
  rcases labelText_cases compact l with h | ⟨h, hp⟩
  · exact ⟨_, _, h, by decide, fun _ => rfl⟩
  · obtain ⟨hne, htrim⟩ := of_isPlainLabel hp
    have hhead := (trim_eq_self_iff.1 htrim).1
    rw [h]
    cases hc : l.toList with
    | nil => exact absurd hc hne
    | cons c t =>
      rw [hc] at hhead hp
      exact ⟨c, t, rfl, hhead c rfl,
        fun hm => absurd List.mem_cons_self (notMem_of_isPlainLabel hp hm)⟩

theorem bracketed?_eq_none {o c : String} {s : List Char} (h : after? o s = none) :
    bracketed? o c s = none := by
  rw [bracketed?, h, Option.bind_none]

/-- A label between brackets is read up to the blanks around it. -/
theorem bracketed?_labelText {o c : String} {d : Char} {ds : List Char} (hc : c.toList = d :: ds)
    (hd : d ∈ markedChars) (compact : Bool) (l : String) (r : List Char) :
    bracketed? o c (o.toList ++ (labelText compact l ++ (c.toList ++ r)))
      = some (trim l.toList, r) := by
  rw [bracketed?, after?_append, Option.bind_some]
  rcases labelText_cases compact l with h | ⟨h, hp⟩
  · have hq : quoted? ('"' :: (Entity.encode l.toList ++ ('"' :: (c.toList ++ r))))
        = some (Entity.encode l.toList, c.toList ++ r) :=
      quoted?_append (Entity.quote_notMem_encode _) _
    have hs : labelText compact l ++ (c.toList ++ r)
        = '"' :: (Entity.encode l.toList ++ ('"' :: (c.toList ++ r))) := by simp [h]
    rw [hs, hq, Option.bind_some, after?_append, Option.map_some, Entity.trim_encode_eq,
      Entity.decode_encode]
    rfl
  · obtain ⟨hne, htrim⟩ := of_isPlainLabel hp
    have hquote := notMem_of_isPlainLabel hp (c := '"') (by decide)
    have hcut : cutAt? c.toList (l.toList ++ (c.toList ++ r)) = some (l.toList, r) := by
      rw [hc]
      simpa using cutAt?_append (l := ds) (r := r) (notMem_of_isPlainLabel hp hd)
    rw [h]
    split
    · rename_i r' heq
      cases hw : l.toList with
      | nil => exact absurd hw hne
      | cons x t =>
        rw [hw] at heq hquote
        exact absurd (List.mem_cons.2 (.inl (List.cons.inj heq).1.symm)) hquote
    · rw [hcut, Option.map_some, htrim, decode_eq_self (notMem_of_isPlainLabel hp (by decide))]

theorem after?_cons_of_ne {a b : Char} (h : a ≠ b) (k s : List Char) :
    after? (String.ofList (a :: k)) (b :: s) = none := by
  rw [after?, String.toList_ofList, isPrefixOf?_cons]
  simp [h]

theorem after?_cons_cons_of_ne {a b : Char} (h : a ≠ b) (c : Char) (k s : List Char) :
    after? (String.ofList (c :: a :: k)) (c :: b :: s) = none := by
  rw [after?, String.toList_ofList, isPrefixOf?_cons, isPrefixOf?_cons]
  simp [h]

/-- The first brackets of a shape that open where a text starts are the ones that are read. -/
theorem shaped?_eq_some (pre : List (String × String × Shape)) (b : String × String × Shape)
    {post : List (String × String × Shape)} {s l r : List Char} (hb : brackets = pre ++ b :: post)
    (hpre : ∀ x ∈ pre, after? x.1 s = none) (h : bracketed? b.1 b.2.1 s = some (l, r)) :
    shaped? s = some ((b.2.2, l), r) := by
  have hnone : (pre.findSome? fun b => (bracketed? b.1 b.2.1 s).map fun p => ((b.2.2, p.1), p.2))
      = none := by
    rw [List.findSome?_eq_none_iff]
    intro x hx
    rw [bracketed?_eq_none (hpre x hx), Option.map_none]
  rw [shaped?, hb, List.findSome?_append, hnone, List.findSome?_cons, h]
  rfl

/-- The brackets that are tried before those of a shape. -/
def bracketsBefore (shape : Shape) : List (String × String × Shape) :=
  brackets.takeWhile fun b => b.2.2 ≠ shape

/-- The brackets of a shape are the first ones for the shape. -/
theorem exists_brackets_eq (shape : Shape) : ∃ post, brackets
    = bracketsBefore shape ++ ((bracketsOf shape).1, (bracketsOf shape).2, shape) :: post := by
  cases shape <;> exact ⟨_, rfl⟩

theorem closingBracket_cons (shape : Shape) :
    ∃ c t, (bracketsOf shape).2.toList = c :: t ∧ c ∈ markedChars := by
  cases shape <;> exact ⟨_, _, rfl, by decide⟩

/-- Where the brackets of a shape open, those that are tried before do not: they need a marked
character at the start of the label, or differ in their first character. -/
theorem after?_bracketsBefore (shape : Shape) {c : Char} (hc : c ∈ markedChars → c = '"')
    (u : List Char) :
    ∀ b ∈ bracketsBefore shape, after? b.1 ((bracketsOf shape).1.toList ++ c :: u) = none := by
  have hne : ∀ d ∈ markedChars, d ≠ '"' → d ≠ c := by
    rintro d hd hq rfl
    exact hq (hc hd)
  have hround : after? "([" ('(' :: c :: u) = none ∧ after? "((" ('(' :: c :: u) = none :=
    ⟨after?_cons_cons_of_ne (hne '[' (by decide) (by decide)) '(' [] u,
      after?_cons_cons_of_ne (hne '(' (by decide) (by decide)) '(' [] u⟩
  have hbrace : after? "\x7b\x7b" ('\x7b' :: c :: u) = none :=
    after?_cons_cons_of_ne (hne '\x7b' (by decide) (by decide)) '\x7b' [] u
  have hslash : after? "[/" ('[' :: c :: u) = none :=
    after?_cons_cons_of_ne (hne '/' (by decide) (by decide)) '[' [] u
  cases shape with
  | stadium => exact List.forall_mem_nil _
  | circle => exact List.forall_mem_singleton.2 rfl
  | hexagon =>
    rw [show bracketsBefore .hexagon = brackets.take 2 from rfl]
    simp only [brackets, List.take_succ_cons, List.take_zero, List.forall_mem_cons]
    exact ⟨rfl, rfl, by simp⟩
  | parallelogram =>
    rw [show bracketsBefore .parallelogram = brackets.take 3 from rfl]
    simp only [brackets, List.take_succ_cons, List.take_zero, List.forall_mem_cons]
    exact ⟨rfl, rfl, rfl, by simp⟩
  | rounded =>
    rw [show bracketsBefore .rounded = brackets.take 4 from rfl]
    simp only [brackets, List.take_succ_cons, List.take_zero, List.forall_mem_cons]
    exact ⟨hround.1, hround.2, rfl, rfl, by simp⟩
  | diamond =>
    rw [show bracketsBefore .diamond = brackets.take 5 from rfl]
    simp only [brackets, List.take_succ_cons, List.take_zero, List.forall_mem_cons]
    exact ⟨rfl, rfl, hbrace, rfl, rfl, by simp⟩
  | rectangle =>
    rw [show bracketsBefore .rectangle = brackets.take 6 from rfl]
    simp only [brackets, List.take_succ_cons, List.take_zero, List.forall_mem_cons]
    exact ⟨rfl, rfl, rfl, hslash, rfl, rfl, by simp⟩

/-- The brackets of a shape are read as those of the shape. -/
theorem shaped?_labelText (shape : Shape) (compact : Bool) (l : String) (r : List Char) :
    shaped? ((bracketsOf shape).1.toList ++ (labelText compact l
        ++ ((bracketsOf shape).2.toList ++ r))) = some ((shape, trim l.toList), r) := by
  obtain ⟨post, hbrackets⟩ := exists_brackets_eq shape
  obtain ⟨d, ds, hd, hmarked⟩ := closingBracket_cons shape
  refine shaped?_eq_some (bracketsBefore shape) _ hbrackets ?_
    (bracketed?_labelText hd hmarked compact l r)
  obtain ⟨c, t, ht, -, hc⟩ := labelText_cons compact l
  rw [ht]
  exact after?_bracketsBefore shape hc _

/-! ## Nodes -/

/-- The characters that bring something about a node with them. -/
def nodeMarks : List Char := ['[', '(', '\x7b', ':']

theorem shapeOf_of_shaped? {w s l r : List Char} {shape : Shape}
    (h : shaped? s = some ((shape, l), r)) (hl : l ≠ []) (hs : ∃ c ∈ s.head?, c ∈ ['[', '(', '\x7b']) :
    shapeOf w s
      = ({ id := String.ofList w, label := some (String.ofList l), shape := some shape }, r) := by
  obtain ⟨c, hc, hmem⟩ := hs
  obtain ⟨t, rfl⟩ := List.head?_eq_some_iff.1 hc
  simp only [List.mem_cons, List.not_mem_nil, or_false] at hmem
  rcases hmem with rfl | rfl | rfl <;> simp only [shapeOf, h, if_neg hl]

theorem shapeOf_bare {s : List Char} (w : List Char) (hs : ∀ c ∈ s.head?, c ∉ nodeMarks) :
    shapeOf w s = ({ id := String.ofList w }, s) := by
  unfold shapeOf
  split
  · exact absurd (by simp [nodeMarks]) (hs '[' rfl)
  · exact absurd (by simp [nodeMarks]) (hs '(' rfl)
  · exact absurd (by simp [nodeMarks]) (hs '\x7b' rfl)
  · rfl

theorem styleClass?_eq_none {s : List Char} (hs : ∀ c ∈ s.head?, c ≠ ':') : styleClass? s = none := by
  cases s with
  | nil => rfl
  | cons c s =>
    have : after? ":::" (c :: s) = none := after?_cons_of_ne (Ne.symm (hs c rfl)) [':', ':'] s
    rw [styleClass?, this, Option.bind_none]

/-- A node that is mentioned by its id alone. -/
theorem node?_bare {w r : List Char} (hw : IsId w)
    (hr : ∀ c ∈ r.head?, isNameChar c = false ∧ c ∉ nodeMarks) :
    node? (w ++ r) = some ({ id := String.ofList w }, r) := by
  have hstyle : styleClass? r = none := styleClass?_eq_none fun c hc h =>
    (hr c hc).2 (by simp [nodeMarks, h])
  rw [node?, id?_append hw fun c hc => (hr c hc).1, Option.map_some,
    shapeOf_bare w fun c hc => (hr c hc).2]
  simp [optionally_of_none hstyle]

/-- How the brackets of a shape open and close. -/
theorem bracketsOf_cons (shape : Shape) :
    (∃ c t, (bracketsOf shape).1.toList = c :: t ∧ c ∈ ['[', '(', '\x7b'])
      ∧ ∃ c ∈ (bracketsOf shape).2.toList.getLast?, c ∈ [']', ')', '\x7d'] := by
  cases shape <;> exact ⟨⟨_, _, rfl, by decide⟩, _, rfl, by decide⟩

theorem isNameChar_bracket {c : Char} (hc : c ∈ ['[', '(', '\x7b']) :
    isNameChar c = false ∧ isBlank c = false ∧ c ∉ "end;".toList := by
  simp only [List.mem_cons, List.not_mem_nil, or_false] at hc
  rcases hc with rfl | rfl | rfl <;> exact ⟨by decide, by decide, by decide⟩

/-- A node as its declaration mentions it. -/
def declaredMention (n : Node α) : NodeMention :=
  { id := n.id, label := some n.label, shape := some n.shape }

/-- A declared node is read whole, but for the blanks around its label. -/
theorem node?_declaration {n : Node α} (hw : IsId n.id.toList) (hl : trim n.label.toList ≠ [])
    (compact : Bool) : node? (declaration compact n) = some (declaredMention n.trimmed, []) := by
  have hshape := shaped?_labelText n.shape compact n.label []
  obtain ⟨⟨c, t, ht, hc⟩, -⟩ := bracketsOf_cons n.shape
  have hdecl : declaration compact n = n.id.toList ++ ((bracketsOf n.shape).1.toList
      ++ (labelText compact n.label ++ ((bracketsOf n.shape).2.toList ++ []))) := by
    simp [declaration]
  rw [hdecl, node?, id?_append hw, Option.map_some,
    shapeOf_of_shaped? hshape hl ⟨c, by simp [ht], hc⟩]
  · have : styleClass? [] = none := rfl
    simp [optionally_of_none this, declaredMention, Node.trimmed, trimmed]
  · rw [ht]
    simpa using (isNameChar_bracket hc).1

/-! ## Links -/

/-- The link that a link's token stands for. -/
def tokenLink [Scalar α] (e : Edge α) : Link :=
  { startHead := if e.startHead ≠ .none ∧ e.endHead ≠ .none then .arrow else .none
    endHead := if e.endHead = .none then .none else .arrow
    stroke := strokeOf e }

/-- The tokens of links as they are written. -/
def writtenTokens : List (String × Link) :=
  [("<-.->", .both .dashed), ("-.-", .headless .dashed), ("-.->", .arrow .dashed),
    ("<==>", .both .thick), ("===", .headless .thick), ("==>", .arrow .thick),
    ("<-->", .both .normal), ("---", .headless .normal), ("-->", .arrow .normal)]

theorem linkToken_mem [Scalar α] (e : Edge α) : (linkToken e, tokenLink e) ∈ writtenTokens := by
  unfold linkToken tokenLink
  generalize strokeOf e = stroke
  by_cases hs : e.startHead = .none <;> by_cases he : e.endHead = .none <;>
    cases stroke <;> simp [hs, he, writtenTokens, Link.both, Link.headless, Link.arrow]

theorem linkToken_mem_arrowTokens [Scalar α] (e : Edge α) :
    (linkToken e, tokenLink e) ∈ arrowTokens :=
  (by decide : writtenTokens ⊆ arrowTokens) (linkToken_mem e)

/-- A token is read as its link, with the label that may follow it. -/
theorem link?_arrowToken {t : String × Link} (ht : t ∈ arrowTokens) {c : Char}
    (hc : c = ' ' ∨ c = '|') (r : List Char) :
    link? (t.1.toList ++ c :: r)
      = some (t.2.labelled (optionally spacedBarLabel? (c :: r)).1.join,
          (optionally spacedBarLabel? (c :: r)).2) := by
  have hread : (labelTokens.findSome? fun x => labelledLink? x.1 x.2.1 x.2.2 (t.1.toList ++ c :: r))
        = none ∧ token? arrowTokens (t.1.toList ++ c :: r) = some (t.2, c :: r) := by
    simp only [arrowTokens, List.mem_cons, List.not_mem_nil, or_false] at ht
    rcases ht with rfl | rfl | rfl | rfl | rfl | rfl | rfl | rfl | rfl | rfl | rfl | rfl <;>
      rcases hc with rfl | rfl <;> exact ⟨rfl, rfl⟩
  rw [link?, hread.1, Option.none_or, hread.2, Option.map_some]

theorem linkLabel_encode {l : String} (hl : trim l.toList ≠ []) :
    linkLabel (Entity.encode l.toList) = some (trimmed l) := by
  unfold linkLabel
  rw [Entity.trim_encode_eq, stripQuotes_eq_self (Entity.quote_notMem_encode _)]
  split
  · rename_i h
    exact absurd (Entity.encode_eq_nil.1 h) hl
  · rw [Entity.decode_encode, trimmed]

theorem encode_eq_self {s : List Char} (h : '#' ∉ s) (hq : '"' ∉ s) : Entity.encode s = s := by
  induction s with
  | nil => rfl
  | cons c s ih =>
    rw [List.mem_cons, not_or] at h hq
    rw [Entity.encode_cons, ih h.2 hq.2, Entity.encodeChar, if_neg (Ne.symm h.1),
      if_neg (Ne.symm hq.1)]
    rfl

/-- A label between bars is read up to the blanks around it. -/
theorem barLabel?_labelText {l : String} (hl : trim l.toList ≠ []) (compact : Bool) (r : List Char) :
    barLabel? ('|' :: (labelText compact l ++ '|' :: r)) = some (some (trimmed l), r) := by
  have ha : ∀ s, after? "|" ('|' :: s) = some s := fun s => rfl
  rw [barLabel?, ha, Option.bind_some]
  rcases labelText_cases compact l with h | ⟨h, hp⟩
  · have hs : labelText compact l ++ '|' :: r
        = '"' :: (Entity.encode l.toList ++ ('"' :: ('|' :: r))) := by simp [h]
    have hq : skipSpaces (labelText compact l ++ '|' :: r)
        = '"' :: (Entity.encode l.toList ++ ('"' :: ('|' :: r))) := by
      rw [hs]
      rfl
    have hbar : skipSpaces ('|' :: r) = '|' :: r := rfl
    rw [hq, quoted?_append (Entity.quote_notMem_encode _), Option.bind_some, hbar, ha,
      Option.map_some, linkLabel_encode hl]
    rfl
  · have hquote := notMem_of_isPlainLabel hp (c := '"') (by decide)
    have hbar := notMem_of_isPlainLabel hp (c := '|') (by decide)
    have henc := encode_eq_self (notMem_of_isPlainLabel hp (c := '#') (by decide)) hquote
    obtain ⟨hne, htrim⟩ := of_isPlainLabel hp
    obtain ⟨c, t, hct⟩ := List.exists_cons_of_ne_nil hne
    have hspace : isSpace c = false := by
      have := (trim_eq_self_iff.1 htrim).1
      rw [hct] at this
      exact isSpace_of_isBlank_eq_false (this c rfl)
    have hcq : c ≠ '"' := fun hc => hquote (by rw [hct, hc]; exact List.mem_cons_self)
    have hnone : quoted? (skipSpaces (labelText compact l ++ '|' :: r)) = none := by
      rw [h, hct, skipSpaces_eq_self (by simp [hspace])]
      exact quoted?_eq_none (by simp [hcq])
    have hcut : cutAt? ['|'] (labelText compact l ++ '|' :: r) = some (l.toList, r) := by
      rw [h]
      exact cutAt?_append (l := []) hbar
    have hlabel := linkLabel_encode hl
    rw [henc] at hlabel
    rw [hnone, hcut]
    simp [hlabel]

/-- The label of a link behind its token. -/
def barText (compact : Bool) : Option String → List Char
  | some l => '|' :: (labelText compact l ++ ['|'])
  | none => []

/-- Behind a space that no bar follows there is no label. -/
theorem spacedBarLabel?_space_eq_none {r : List Char}
    (hr : ∀ c ∈ r.head?, isSpace c = false ∧ c ≠ '|') : spacedBarLabel? (' ' :: r) = none := by
  rw [spacedBarLabel?, skipSpaces_space fun c hc => (hr c hc).1, barLabel?]
  cases r with
  | nil => rfl
  | cons c r =>
    have hbar : after? "|" (c :: r) = none := after?_cons_of_ne (Ne.symm (hr c rfl).2) [] r
    rw [hbar, Option.bind_none]

/-- A label between bars may have a space in front. -/
theorem spacedBarLabel?_eq (spaced : Bool) (r : List Char) :
    spacedBarLabel? ((if spaced then [' '] else []) ++ '|' :: r) = barLabel? ('|' :: r) := by
  cases spaced with
  | true =>
    show spacedBarLabel? (' ' :: '|' :: r) = _
    rw [spacedBarLabel?, skipSpaces_space (by simp [isSpace])]
  | false =>
    show spacedBarLabel? ('|' :: r) = _
    rw [spacedBarLabel?, skipSpaces_eq_self (by simp [isSpace])]

/-- A written link is read whole, but for the blanks around its label. -/
theorem link?_written [Scalar α] {e : Edge α} (hl : ∀ l ∈ e.label, trim l.toList ≠ [])
    (compact : Bool) {r : List Char} (hr : ∀ c ∈ r.head?, isSpace c = false ∧ c ≠ '|') :
    link? ((linkToken e).toList ++ (barText compact e.label ++ ' ' :: r))
      = some ((tokenLink e).labelled e.trimmed.label, ' ' :: r) := by
  cases hlabel : e.label with
  | none =>
    rw [barText, List.nil_append, link?_arrowToken (linkToken_mem_arrowTokens e) (.inl rfl)]
    simp [optionally_of_none (spacedBarLabel?_space_eq_none hr), Edge.trimmed, hlabel]
  | some l =>
    have htext : barText compact (some l) ++ ' ' :: r
        = '|' :: (labelText compact l ++ '|' :: ' ' :: r) := by simp [barText]
    have hbar : spacedBarLabel? ('|' :: (labelText compact l ++ '|' :: ' ' :: r))
        = some (some (trimmed l), ' ' :: r) :=
      (spacedBarLabel?_eq false _).trans (barLabel?_labelText (hl l hlabel) compact _)
    rw [htext, link?_arrowToken (linkToken_mem_arrowTokens e) (.inr rfl)]
    simp [optionally_of_some hbar, Edge.trimmed, hlabel]

/-! ## Statements -/

theorem joinedNode?_eq_none {s : List Char} (h : ∀ c ∈ (skipSpaces s).head?, c ≠ '&') :
    joinedNode? s = none := by
  cases hs : skipSpaces s with
  | nil => rw [joinedNode?, hs]; rfl
  | cons c t =>
    have : after? "&" (c :: t) = none :=
      after?_cons_of_ne (Ne.symm (h c (by rw [hs]; rfl))) [] t
    rw [joinedNode?, hs, this, Option.bind_none]

theorem joinedNodes_of_none {s : List Char} (h : joinedNode? s = none) :
    joinedNodes s = ([], s) := by
  rw [joinedNodes]
  split
  · rfl
  · rename_i hj
    rw [h] at hj
    simp at hj

/-- A node that no ampersand follows is a node group of its own. -/
theorem nodeGroup?_of_node? {s r : List Char} {m : NodeMention} (h : node? s = some (m, r))
    (hr : ∀ c ∈ (skipSpaces r).head?, c ≠ '&') : nodeGroup? s = some ([m], r) := by
  rw [nodeGroup?, h, Option.map_some]
  simp [joinedNodes_of_none (joinedNode?_eq_none hr)]

theorem chain?_nil : chain? [] = some ([], []) := by
  rw [chain?]
  split
  · rfl
  · rename_i hl
    have : link? (skipSpaces []) = none := rfl
    rw [this] at hl
    simp at hl

/-- A link and the node group behind it, in front of the rest of a statement. -/
theorem chain?_cons {s r t : List Char} {l : Link} {ns : List NodeMention}
    (hl : link? (skipSpaces s) = some (l, r)) (hg : nodeGroup? (skipSpaces r) = some (ns, t)) :
    chain? s = (chain? t).map fun p => ((l, ns) :: p.1, p.2) := by
  rw [chain?]
  split
  · rename_i h
    rw [hl] at h
    simp at h
  · rename_i l' r' h
    rw [hl] at h
    obtain ⟨rfl, rfl⟩ := Prod.mk.inj (Option.some.inj h)
    split
    · rename_i h
      rw [hg] at h
      simp at h
    · rename_i ns' t' h
      rw [hg] at h
      obtain ⟨rfl, rfl⟩ := Prod.mk.inj (Option.some.inj h)
      rfl

/-- A link and the node group behind it, at the end of a statement. -/
theorem chain?_link {s r : List Char} {l : Link} {ns : List NodeMention}
    (hl : link? (skipSpaces s) = some (l, r)) (hg : nodeGroup? (skipSpaces r) = some (ns, [])) :
    chain? s = some ([(l, ns)], []) := by
  rw [chain?_cons hl hg, chain?_nil, Option.map_some]

/-- A node alone is a statement. -/
theorem statement?_node {s : List Char} {m : NodeMention} (h : node? s = some (m, [])) :
    statement? s = some (⟨[m], []⟩, []) := by
  rw [statement?, nodeGroup?_of_node? h (by simp [skipSpaces]), Option.bind_some, chain?_nil,
    Option.map_some]

/-- An edge as its line, behind the indentation. -/
def edgeText [Scalar α] (compact : Bool) (e : Edge α) : List Char :=
  e.source.toList ++ ' ' :: ((linkToken e).toList ++ (barText compact e.label
    ++ ' ' :: e.target.toList))

/-- The statement of an edge. -/
def edgeStatement [Scalar α] (e : Edge α) : Statement :=
  { first := [{ id := e.source }]
    next := [((tokenLink e).labelled e.label, [{ id := e.target }])] }

theorem linkToken_cons [Scalar α] (e : Edge α) :
    ∃ c t, (linkToken e).toList = c :: t ∧ c ∈ ['<', '-', '='] := by
  have hmem := linkToken_mem e
  generalize linkToken e = token, tokenLink e = link at hmem
  simp only [writtenTokens, List.mem_cons, Prod.mk.injEq, List.not_mem_nil, or_false] at hmem
  rcases hmem with ⟨rfl, -⟩ | ⟨rfl, -⟩ | ⟨rfl, -⟩ | ⟨rfl, -⟩ | ⟨rfl, -⟩ | ⟨rfl, -⟩ | ⟨rfl, -⟩
    | ⟨rfl, -⟩ | ⟨rfl, -⟩ <;> exact ⟨_, _, rfl, by decide⟩

/-- A written link behind a space, and the id of its target. -/
theorem link?_edgeText [Scalar α] {e : Edge α} (ht : IsId e.target.toList)
    (hl : ∀ l ∈ e.label, trim l.toList ≠ []) (compact : Bool) :
    link? ((linkToken e).toList ++ (barText compact e.label ++ ' ' :: e.target.toList))
      = some ((tokenLink e).labelled e.trimmed.label, ' ' :: e.target.toList) := by
  refine link?_written hl compact fun c hc => ?_
  obtain ⟨b, t, hb, hw⟩ := ht.exists_cons
  rw [hb] at hc
  obtain rfl : b = c := by simpa using hc
  refine ⟨isSpace_of_isBlank_eq_false (isBlank_of_isWordChar hw), ?_⟩
  rintro rfl
  revert hw
  decide

/-- A written edge is read as its statement, but for the blanks around its label. -/
theorem statement?_edgeText [Scalar α] {e : Edge α} (hs : IsId e.source.toList)
    (ht : IsId e.target.toList) (hl : ∀ l ∈ e.label, trim l.toList ≠ []) (compact : Bool) :
    statement? (edgeText compact e) = some (edgeStatement e.trimmed, []) := by
  obtain ⟨c, u, hcu, hc⟩ := linkToken_cons e
  have hchars : isSpace c = false ∧ c ≠ '&' := by
    simp only [List.mem_cons, List.not_mem_nil, or_false] at hc
    rcases hc with rfl | rfl | rfl <;> exact ⟨by decide, by decide⟩
  have hlink := link?_edgeText ht hl compact
  set rest := (linkToken e).toList ++ (barText compact e.label ++ ' ' :: e.target.toList) with hrest
  have hskip : skipSpaces (' ' :: rest) = rest :=
    skipSpaces_space (by simp [hrest, hcu, hchars.1])
  have hsource : nodeGroup? (edgeText compact e) = some ([{ id := e.source }], ' ' :: rest) := by
    have hspace : isNameChar ' ' = false := by decide
    have hnode := node?_bare (r := ' ' :: rest) hs (by simp [hspace, nodeMarks])
    rw [String.ofList_toList] at hnode
    refine nodeGroup?_of_node? hnode ?_
    rw [hskip]
    simp [hrest, hcu, hchars.2]
  have htarget : nodeGroup? (skipSpaces (' ' :: e.target.toList))
      = some ([{ id := e.target }], []) := by
    have hhead : skipSpaces (' ' :: e.target.toList) = e.target.toList := by
      refine skipSpaces_space fun c hc => ?_
      exact isSpace_of_isBlank_eq_false (ht.isName.head c hc)
    have hnode := node?_bare (r := []) ht (by simp)
    rw [String.ofList_toList, List.append_nil] at hnode
    rw [hhead]
    exact nodeGroup?_of_node? hnode (by simp [skipSpaces])
  rw [statement?, hsource, Option.bind_some]
  dsimp only
  rw [chain?_link (by rw [hskip]; exact hlink) htarget, Option.map_some]
  rfl

/-! ## Lines -/

theorem isDirective_eq_false {text : List Char}
    (h : ∀ k ∈ directiveWords, ∀ c r, afterKeyword? k text = some (c :: r) →
      (link? (c :: r)).isSome = true) : isDirective text = false := by
  rw [isDirective, List.any_eq_false]
  intro k hk
  split
  · simp
  · simp
  · rename_i r hne hr
    cases r with
    | nil => simp at hne
    | cons c r =>
      have := h k hk c r hr
      cases hl : link? (c :: r) with
      | none => rw [hl] at this; simp at this
      | some p => simp

theorem withoutSemicolons_eq_self {text : List Char}
    (h : ∀ c ∈ text.getLast?, isBlank c = false ∧ c ≠ ';') : withoutSemicolons text = text := by
  have hdrop : text.reverse.dropWhile (· == ';') = text.reverse := by
    cases hr : text.reverse with
    | nil => rfl
    | cons c r =>
      have hc : c ∈ text.getLast? := by
        rw [← List.head?_reverse, hr]
        rfl
      rw [List.dropWhile_cons_of_neg (by simpa using (h c hc).2)]
  rw [withoutSemicolons, hdrop, List.reverse_reverse]
  exact trimEnd_eq_self fun c hc => (h c hc).1

/-- A statement that fills a line which is nothing else is what the line is read as. -/
theorem read_statement {text : List Char} {stmt : Statement}
    (hsub : afterKeyword? "subgraph" text = none)
    (hend : text ≠ "end".toList ∧ text ≠ "end;".toList)
    (hdir : isDirective text = false)
    (hlast : ∀ c ∈ text.getLast?, isBlank c = false ∧ c ≠ ';')
    (hstmt : statement? text = some (stmt, [])) : Item.read text = .statement stmt := by
  have h1 : (decide (text = "end".toList) || decide (text = "end;".toList)) = false :=
    Bool.or_eq_false_iff.2 ⟨decide_eq_false hend.1, decide_eq_false hend.2⟩
  have htrim : trim [] = ([] : List Char) := rfl
  rw [Item.read, hsub]
  dsimp only
  rw [h1, hdir, withoutSemicolons_eq_self hlast, hstmt]
  simp [htrim]

/-- A line with a character that does not belong to `end` closes nothing. -/
theorem ne_end_of_mem {text : List Char} {c : Char} (hc : c ∈ text) (hne : c ∉ "end;".toList) :
    text ≠ "end".toList ∧ text ≠ "end;".toList := by
  have hsub : "end".toList ⊆ "end;".toList := by decide
  exact ⟨fun h => hne (hsub (h ▸ hc)), fun h => hne (h ▸ hc)⟩

/-- The keywords are names. -/
theorem isNameChar_keyword {k : String} (hk : k = "subgraph" ∨ k ∈ directiveWords) :
    ∀ c ∈ k.toList, isNameChar c = true := by
  simp only [directiveWords, List.mem_cons, List.not_mem_nil, or_false] at hk
  rcases hk with rfl | rfl | rfl | rfl | rfl | rfl | rfl <;>
    simp [isNameChar, isWordChar, isAlphanumeric]

/-- What a declared node's line is read as. -/
theorem read_declaration {n : Node α} (hw : IsId n.id.toList) (hl : trim n.label.toList ≠ [])
    (compact : Bool) :
    Item.read (declaration compact n) = .statement ⟨[declaredMention n.trimmed], []⟩ := by
  obtain ⟨⟨c, t, ht, hc⟩, d, hd, hclose⟩ := bracketsOf_cons n.shape
  obtain ⟨hname, hblank, hend⟩ := isNameChar_bracket hc
  have hdecl : declaration compact n = n.id.toList ++ c :: (t
      ++ (labelText compact n.label ++ (bracketsOf n.shape).2.toList)) := by
    simp [declaration, ht]
  have hkey : ∀ k : String, k = "subgraph" ∨ k ∈ directiveWords →
      afterKeyword? k (declaration compact n) = none := by
    intro k hk
    rw [hdecl]
    by_cases h : n.id.toList = k.toList
    · rw [h]
      exact afterKeyword?_cons_eq_none hblank _
    · exact afterKeyword?_append_eq_none h (isNameChar_keyword hk) hw.isName.isNameChar
        (by simp [hname])
  have hlast : ∀ x ∈ (declaration compact n).getLast?, isBlank x = false ∧ x ≠ ';' := by
    have hsplit : declaration compact n = (n.id.toList ++ (bracketsOf n.shape).1.toList
        ++ labelText compact n.label) ++ (bracketsOf n.shape).2.toList := by
      simp [declaration]
    have hne : (bracketsOf n.shape).2.toList ≠ [] := by
      rintro h
      simp [h] at hd
    rw [hsplit, List.getLast?_append_of_ne_nil _ hne]
    intro x hx
    obtain rfl : d = x := Option.mem_unique hd hx
    simp only [List.mem_cons, List.not_mem_nil, or_false] at hclose
    rcases hclose with rfl | rfl | rfl <;> exact ⟨by decide, by decide⟩
  refine read_statement (hkey _ (.inl rfl)) (ne_end_of_mem (c := c) (by simp [hdecl]) hend) ?_ hlast
    (statement?_node (node?_declaration hw hl compact))
  refine isDirective_eq_false fun k hk x r h => ?_
  rw [hkey k (.inr hk)] at h
  simp at h

/-- What the line of a node is read as that is mentioned by its id alone. -/
theorem read_bare {w : List Char} (hw : IsId w) (hsub : w ≠ "subgraph".toList)
    (hend : w ≠ "end".toList) : Item.read w = .statement ⟨[{ id := String.ofList w }], []⟩ := by
  have hkey : ∀ k : String, k = "subgraph" ∨ k ∈ directiveWords → w ≠ k.toList →
      afterKeyword? k w = none := by
    intro k hk hne
    have := afterKeyword?_append_eq_none (r := []) hne (isNameChar_keyword hk)
      hw.isName.isNameChar (by simp)
    rwa [List.append_nil] at this
  have hnode : node? w = some ({ id := String.ofList w }, []) := by
    have := node?_bare (r := []) hw (by simp)
    rwa [List.append_nil] at this
  have hsemi : w ≠ "end;".toList := by
    rintro rfl
    exact absurd (hw.isName.isNameChar ';' (by simp)) (by decide)
  refine read_statement (hkey _ (.inl rfl) hsub) ⟨hend, hsemi⟩ ?_ ?_ (statement?_node hnode)
  · refine isDirective_eq_false fun k hk x r h => ?_
    by_cases hwk : w = k.toList
    · rw [hwk, afterKeyword?_self] at h
      simp at h
    · rw [hkey k (.inr hk) hwk] at h
      simp at h
  · intro c hc
    refine ⟨hw.isName.last c hc, ?_⟩
    rintro rfl
    exact absurd (hw.isName.isNameChar ';' (List.mem_of_mem_getLast? hc)) (by decide)

/-- What the line of an edge is read as: a directive's word in front of a link is an id. -/
theorem read_edgeText [Scalar α] {e : Edge α} (hs : IsId e.source.toList) (ht : IsId e.target.toList)
    (hl : ∀ l ∈ e.label, trim l.toList ≠ []) (hsub : e.source ≠ "subgraph") (compact : Bool) :
    Item.read (edgeText compact e) = .statement (edgeStatement e.trimmed) := by
  obtain ⟨c, u, hcu, hc⟩ := linkToken_cons e
  have hblank : isBlank c = false := by
    simp only [List.mem_cons, List.not_mem_nil, or_false] at hc
    rcases hc with rfl | rfl | rfl <;> decide
  have hlink := link?_edgeText ht hl compact
  have hstmt := statement?_edgeText hs ht hl compact
  have hspace : isNameChar ' ' = false := by decide
  unfold edgeText at hstmt ⊢
  have hkey : ∀ k : String, k = "subgraph" ∨ k ∈ directiveWords → e.source ≠ k →
      afterKeyword? k (e.source.toList ++ ' ' :: ((linkToken e).toList
        ++ (barText compact e.label ++ ' ' :: e.target.toList))) = none := fun k hk hne =>
    afterKeyword?_append_eq_none (fun h => hne (String.toList_inj.1 h)) (isNameChar_keyword hk)
      hs.isName.isNameChar (by simp [hspace])
  refine read_statement (hkey _ (.inl rfl) hsub) (ne_end_of_mem (c := ' ') (by simp) (by decide)) ?_ ?_
    hstmt
  · refine isDirective_eq_false fun k hk x r h => ?_
    by_cases hsk : e.source = k
    · rw [hsk, afterKeyword?_space, trimStart_eq_self (by simp [hcu, hblank])] at h
      rw [← Option.some.inj h, hlink]
      rfl
    · rw [hkey k (.inr hk) hsk] at h
      simp at h
  · intro x hx
    have hsplit : e.source.toList ++ ' ' :: ((linkToken e).toList
        ++ (barText compact e.label ++ ' ' :: e.target.toList))
        = (e.source.toList ++ ' ' :: ((linkToken e).toList ++ (barText compact e.label ++ [' '])))
          ++ e.target.toList := by simp
    rw [hsplit, List.getLast?_append_of_ne_nil _ ht.ne_nil] at hx
    refine ⟨ht.isName.last x hx, ?_⟩
    rintro rfl
    exact absurd (ht.isName.isNameChar ';' (List.mem_of_mem_getLast? hx)) (by decide)

end DiagramBoard.Grammar.Flowchart
