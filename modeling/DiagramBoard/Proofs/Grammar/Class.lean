/-
DiagramBoard.Proofs.Grammar.Class — class and entity diagrams come back from the text that is
written for them.

Both kinds of diagram are read by one grammar that tries its kinds of line in turn, so each written
line must miss all the kinds before its own.

Main statements: what each written line is read as (`read_classLine`, `read_entityLine`,
`read_relationLine`, `read_entityRelationLine`), and what the lines between braces do to the class
they belong to (`foldl_memberLines`).
-/
import DiagramBoard.Grammar.Class
import DiagramBoard.Proofs.Diagram.Member
import DiagramBoard.Proofs.Diagram.Nodes
import DiagramBoard.Proofs.Writer.Lines

namespace DiagramBoard.Grammar.Class

open Text
open Writer (indent colonLabel blockLines textAfterColon?_colonLabel isWordChar_head_colonLabel)
open Writer.Class (relationToken)

variable {α : Type}

/-! ## Lines that start with a name -/

theorem startsWith_cons_eq_false {c d : Char} (h : c ≠ d) (k : List Char) (s : List Char) :
    startsWith (String.ofList (c :: k)) (d :: s) = false := by
  rw [startsWith, String.toList_ofList]
  simp [List.isPrefixOf, h]

theorem isNameChar_ne {c d : Char} (hc : isNameChar c = true) (hd : isNameChar d = false) :
    c ≠ d := by
  rintro rfl
  simp [hc] at hd

/-- Behind a keyword that is the whole name, or no keyword at all. -/
theorem afterKeyword?_name {k : String} {w r : List Char} (hk : ∀ c ∈ k.toList, isNameChar c = true)
    (hw : IsName w) (hr : ∀ c ∈ r.head?, isNameChar c = false) :
    afterKeyword? k (w ++ r) = none ∨ w = k.toList := by
  by_cases h : w = k.toList
  · exact .inr h
  · exact .inl (afterKeyword?_append_eq_none h hk hw.isNameChar hr)

/-! ## The lines of classes -/

/-- The label of a class behind its name. -/
def classLabel (n : Node α) : List Char :=
  if n.label = n.id then [] else '[' :: '"' :: (Entity.encode n.label.toList ++ ['"', ']'])

/-- The opening brace behind a name, if members follow. -/
def braceText (opens : Bool) : List Char := if opens then [' ', '\x7b'] else []

theorem trim_braceText (opens : Bool) :
    trim (braceText opens) = if opens then ['\x7b'] else [] := by
  cases opens <;> rfl

theorem isNameChar_head_braceText (opens : Bool) :
    ∀ c ∈ (braceText opens).head?, isNameChar c = false := by
  have : isNameChar ' ' = false := by decide
  cases opens <;> simp [braceText, this]

theorem isWordChar_of_isNameChar_eq_false {c : Char} (h : isNameChar c = false) :
    isWordChar c = false := by
  rw [isNameChar, Bool.or_eq_false_iff] at h
  exact h.1

theorem isWordChar_head_classLabel (n : Node α) (opens : Bool) :
    ∀ c ∈ (classLabel n ++ braceText opens).head?, isWordChar c = false := by
  have h1 : isWordChar '[' = false := by decide
  unfold classLabel
  split
  · exact fun c hc => isWordChar_of_isNameChar_eq_false (isNameChar_head_braceText opens c hc)
  · simp [h1]

/-- A label in brackets and quotes is read whole, if it has no closing bracket of its own. -/
theorem bracketLabel?_classLabel {n : Node α} (hl : ']' ∉ n.label.toList) (opens : Bool) :
    let p := optionally bracketLabel? (classLabel n ++ braceText opens)
    p.1.map (fun l => String.ofList (Entity.decode (stripQuotes (trim l))))
      = (if n.label = n.id then none else some n.label) ∧ p.2 = braceText opens := by
  by_cases h : n.label = n.id
  · have hnone : bracketLabel? (braceText opens) = none := by cases opens <;> rfl
    simp [classLabel, h, optionally_of_none hnone]
  · have hs : classLabel n ++ braceText opens
        = '[' :: (('"' :: (Entity.encode n.label.toList ++ ['"'])) ++ ([']'] ++ braceText opens)) := by
      simp [classLabel, h]
    have hb : ']' ∉ '"' :: (Entity.encode n.label.toList ++ ['"']) := by
      have := Entity.notMem_encode (c := ']') (by decide) hl
      simp [this]
    have hcut : bracketLabel? (classLabel n ++ braceText opens)
        = some ('"' :: (Entity.encode n.label.toList ++ ['"']), braceText opens) := by
      have ha : after? "[" (classLabel n ++ braceText opens)
          = some (('"' :: (Entity.encode n.label.toList ++ ['"'])) ++ ([']'] ++ braceText opens)) := by
        rw [hs]
        exact after?_eq_some.2 rfl
      rw [bracketLabel?, ha, Option.bind_some]
      exact cutAt?_append (l := []) hb
    simp [optionally_of_some hcut, h, trim_quoted, stripQuotes_quoted]

/-- What follows `class` on the line of a class. -/
theorem classHeader?_written {n : Node α} (hw : IsWord n.id.toList) (hl : ']' ∉ n.label.toList)
    (opens : Bool) :
    classHeader? (n.id.toList ++ (classLabel n ++ braceText opens)) =
      some (.declaration n.id.toList (if n.label = n.id then none else some n.label) opens) := by
  obtain ⟨h1, h2⟩ := bracketLabel?_classLabel hl opens
  rw [classHeader?, word?_append hw (isWordChar_head_classLabel n opens), Option.bind_some]
  simp only [h1, h2, trim_braceText]
  cases opens <;> rfl

/-- What the line of a class is read as. -/
theorem read_classLine {n : Node α} (hw : IsWord n.id.toList) (hl : ']' ∉ n.label.toList)
    (opens : Bool) :
    Item.read ("class".toList ++ ' ' :: (n.id.toList ++ (classLabel n ++ braceText opens))) =
      .declaration n.id.toList (if n.label = n.id then none else some n.label) opens := by
  set x := n.id.toList ++ (classLabel n ++ braceText opens) with hx
  have h1 : afterKeyword? "direction" ("class".toList ++ ' ' :: x) = none := rfl
  have h2 : startsWith "<<" ("class".toList ++ ' ' :: x) = false := rfl
  have hstart : trimStart x = x := by
    obtain ⟨c, w, hcw, hc⟩ := hw.exists_cons
    refine trimStart_eq_self ?_
    rw [hx, hcw]
    simpa using isBlank_of_isWordChar hc
  have h3 : (afterKeyword? "class" ("class".toList ++ ' ' :: x)).bind classHeader?
      = some (.declaration n.id.toList (if n.label = n.id then none else some n.label) opens) := by
    rw [afterKeyword?_space, Option.bind_some, hstart]
    exact classHeader?_written hw hl opens
  generalize "class".toList ++ ' ' :: x = s at h1 h2 h3
  simp [Item.read, h1, h2, h3]

/-! ## The lines of entities -/

/-- A line that no keyword claims. -/
structure IsFree (s : List Char) : Prop where
  direction : afterKeyword? "direction" s = none
  remark : startsWith "<<" s = false
  classHeader : (afterKeyword? "class" s).bind classHeader? = none

/-- A line that starts with a name is free, unless the name is `direction` or it is `class` with
another name behind it. -/
theorem isFree_name {w r : List Char} (hw : IsName w) (hdir : w ≠ "direction".toList)
    (hr : ∀ c ∈ r.head?, isNameChar c = false) (hclass : (classHeader? (trimStart r)) = none) :
    IsFree (w ++ r) where
  direction := afterKeyword?_append_eq_none hdir (by simp [isNameChar, isWordChar, isAlphanumeric])
    hw.isNameChar hr
  remark := by
    obtain ⟨c, w', rfl, hc⟩ := hw.exists_cons
    exact startsWith_cons_eq_false (isNameChar_ne hc (by decide)).symm ['<'] (w' ++ r)
  classHeader := by
    rcases afterKeyword?_name (k := "class") (by simp [isNameChar, isWordChar, isAlphanumeric]) hw hr
      with h | h
    · rw [h, Option.bind_none]
    · rw [h, afterKeyword?, after?_append]
      cases r with
      | nil => rfl
      | cons c r =>
        dsimp only
        split
        · exact hclass
        · rfl

/-- A name with a token behind it, which is no header of a class. -/
theorem isFree_name_token {w : List Char} (hw : IsName w) (hdir : w ≠ "direction".toList) {c : Char}
    (hc : isBlank c = false) {r : List Char} (hclass : classHeader? (c :: r) = none) :
    IsFree (w ++ ' ' :: c :: r) := by
  have hspace : isNameChar ' ' = false := by decide
  have hstart : trimStart (' ' :: c :: r) = c :: r := by
    have hb : isBlank ' ' = true := by decide
    rw [trimStart, List.dropWhile_cons_of_pos hb]
    exact trimStart_eq_self (by simp [hc])
  exact isFree_name hw hdir (by simp [hspace]) (by rw [hstart]; exact hclass)

/-- A name with a token behind it opens no block. -/
theorem entityBlock?_name_token {w : List Char} (hw : IsName w) {c : Char} (hc : isBlank c = false)
    (hbrace : c ≠ '\x7b') (r : List Char) : entityBlock? (w ++ ' ' :: c :: r) = none := by
  have hspace : isNameChar ' ' = false := by decide
  have hopen : startsWith "\x7b" (c :: r) = false := startsWith_cons_eq_false hbrace.symm [] r
  rw [entityBlock?, name?_append hw (by simp [hspace]), Option.bind_some,
    skipSpaces_space (by simp [isSpace_of_isBlank_eq_false hc]), hopen]
  rfl

/-- A name with its opening brace, or alone. -/
theorem entityBlock?_name {w : List Char} (hw : IsName w) (opens : Bool) :
    entityBlock? (w ++ braceText opens)
      = if opens then some (.declaration w none true) else none := by
  rw [entityBlock?, name?_append hw (isNameChar_head_braceText opens), Option.bind_some]
  cases opens <;> rfl

/-- A name alone is no member with its owner in front. -/
theorem ownedMember?_name {w : List Char} (hw : IsName w) : ownedMember? w = none := by
  unfold ownedMember?
  cases hword : word? w with
  | none => rfl
  | some p =>
    obtain ⟨owner, r⟩ := p
    have hcolon : after? ":" (skipSpaces r) = none := by
      cases ha : after? ":" (skipSpaces r) with
      | none => rfl
      | some t =>
        rw [after?_eq_some] at ha
        have hmem : ':' ∈ w :=
          (subset_of_takeSome? hword).2 (skipSpaces_subset r (by rw [ha]; simp))
        exact absurd rfl (isNameChar_ne (d := ':') (hw.isNameChar _ hmem) (by decide))
    rw [Option.bind_some, hcolon]
    rfl

/-- What the line of an entity is read as. -/
theorem read_entityLine {w : List Char} (hw : IsName w) (hdir : w ≠ "direction".toList)
    (opens : Bool) (hrel : opens = false → classRelation? w = none) :
    Item.read (w ++ braceText opens) = .declaration w none opens := by
  have hfree : IsFree (w ++ braceText opens) := by
    refine isFree_name hw hdir (isNameChar_head_braceText opens) ?_
    cases opens <;> rfl
  have hblock := entityBlock?_name hw opens
  cases opens with
  | true =>
    generalize w ++ braceText true = s at hfree hblock
    simp [Item.read, hfree.direction, hfree.remark, hfree.classHeader, hblock]
  | false =>
    have hs : w ++ braceText false = w := by simp [braceText]
    rw [hs] at hfree hblock ⊢
    have hname : name? w = some (w, []) := by simpa using name?_append (r := []) hw (by simp)
    have hent : entityRelation? w = none := by
      rw [entityRelation?, hname, Option.bind_some]
      rfl
    have hbare : bareEntity? w = some (.declaration w none false) := by
      rw [bareEntity?, hname, Option.bind_some]
      rfl
    simp [Item.read, hfree.direction, hfree.remark, hfree.classHeader, hblock, hrel rfl, hent,
      ownedMember?_name hw, hbare]

/-! ## Relations between classes -/

/-- The head that comes back of one written at an end of a relation between classes. -/
def writtenHead (dashed : Bool) : ArrowHead → ArrowHead
  | .triangle | .triangleOutline => if dashed then .triangleOutline else .triangle
  | .diamond => if dashed then .none else .diamond
  | .diamondOutline => if dashed then .none else .diamondOutline
  | .arrow => .arrow
  | _ => .none

/-- The relation that comes back of one between classes: of two heads the one at the start is kept,
but for the arrow in both directions. -/
def writtenRelation (startHead endHead : ArrowHead) (dashed : Bool) : Relation :=
  if startHead = .arrow && endHead = .arrow && !dashed then ⟨.arrow, .arrow, false⟩
  else if writtenHead dashed startHead = .none then ⟨.none, writtenHead dashed endHead, dashed⟩
  else ⟨writtenHead dashed startHead, .none, dashed⟩

/-- The token of a relation is read as the relation. -/
theorem token?_relationToken (e : Edge α) (r : List Char) :
    token? relationTokens ((relationToken e).toList ++ ' ' :: r)
      = some (writtenRelation e.startHead e.endHead e.isDashed, ' ' :: r) := by
  unfold relationToken
  generalize e.isDashed = dashed
  generalize e.startHead = startHead
  generalize e.endHead = endHead
  cases startHead <;> cases endHead <;> cases dashed <;> rfl

/-- The first character of a relation's token. -/
theorem relationToken_cons (e : Edge α) :
    ∃ c t, (relationToken e).toList = c :: t ∧ c ∈ ['-', '.', '<', '*', 'o'] ∧
      (c = 'o' → t.head? = some '-') := by
  have hmem : relationToken e ∈ relationTokens.map (·.1) := by
    unfold relationToken
    generalize e.isDashed = dashed
    generalize e.startHead = startHead
    generalize e.endHead = endHead
    cases startHead <;> cases endHead <;> cases dashed <;> decide
  simp only [relationTokens, List.map_cons, List.map_nil, List.mem_cons, List.not_mem_nil,
    or_false] at hmem
  rcases hmem with h | h | h | h | h | h | h | h | h | h | h | h | h | h | h <;> rw [h] <;>
    exact ⟨_, _, rfl, by decide, by decide⟩

theorem not_quoted_cons {c : Char} (hc : c ≠ '"') (s : List Char) :
    optionally multiplicity? (c :: s) = (none, c :: s) := by
  refine optionally_of_none ?_
  rw [multiplicity?, quoted?_eq_none (by simpa using hc), Option.map_none]

/-- A relation between classes is read whole. -/
theorem classRelation?_written {e : Edge α} (hs : IsWord e.source.toList)
    (ht : IsWord e.target.toList) (hl : ∀ l ∈ e.label, IsTidy l.toList) :
    classRelation? (e.source.toList ++ ' ' :: ((relationToken e).toList ++
        ' ' :: (e.target.toList ++ colonLabel e.label))) =
      some ⟨e.source.toList, e.target.toList,
        writtenRelation e.startHead e.endHead e.isDashed, e.label⟩ := by
  have hsp : isWordChar ' ' = false := by decide
  obtain ⟨c, t, hct, hc, -⟩ := relationToken_cons e
  have hcs : isSpace c = false ∧ c ≠ '"' := by
    simp only [List.mem_cons, List.not_mem_nil, or_false] at hc
    rcases hc with rfl | rfl | rfl | rfl | rfl <;> exact ⟨by decide, by decide⟩
  obtain ⟨b, w, hbw, hb⟩ := ht.exists_cons
  have hb1 : isSpace b = false := isSpace_of_isBlank_eq_false (isBlank_of_isWordChar hb)
  have hb2 : b ≠ '"' := by
    rintro rfl
    revert hb
    decide
  have htok := token?_relationToken e (e.target.toList ++ colonLabel e.label)
  rw [classRelation?, word?_append hs (by simp [hsp]), Option.bind_some,
    skipSpaces_space (by simp [hct, hcs.1])]
  have hopt : optionally multiplicity? ((relationToken e).toList ++
      ' ' :: (e.target.toList ++ colonLabel e.label)) =
      (none, (relationToken e).toList ++ ' ' :: (e.target.toList ++ colonLabel e.label)) := by
    rw [hct]
    exact not_quoted_cons hcs.2 _
  have hopt2 : optionally multiplicity? (e.target.toList ++ colonLabel e.label) =
      (none, e.target.toList ++ colonLabel e.label) := by
    rw [hbw]
    exact not_quoted_cons hb2 _
  rw [hopt, htok, Option.bind_some, skipSpaces_space (by simp [hbw, hb1]), hopt2,
    word?_append ht (isWordChar_head_colonLabel e.label), Option.bind_some,
    relationLabel?, textAfterColon?_colonLabel hl, Option.map_some]

/-- Behind `class` a token is no name, and `o` alone does not end a header. -/
theorem classHeader?_relationToken (e : Edge α) (r : List Char) :
    classHeader? ((relationToken e).toList ++ ' ' :: r) = none := by
  obtain ⟨c, t, hct, hc, ho⟩ := relationToken_cons e
  rw [hct, classHeader?]
  by_cases hco : c = 'o'
  · obtain ⟨t', rfl⟩ := List.head?_eq_some_iff.1 (ho hco)
    subst hco
    have hdash : isWordChar '-' = false := by decide
    have hword : word? ('o' :: '-' :: (t' ++ ' ' :: r))
        = some (['o'], '-' :: (t' ++ ' ' :: r)) :=
      word?_append (w := ['o']) ⟨by simp, by simp [isWordChar, isAlphanumeric]⟩ (by simp [hdash])
    have hlabel : bracketLabel? ('-' :: (t' ++ ' ' :: r)) = none := rfl
    obtain ⟨x, hx⟩ := trim_cons (c := '-') (by decide) (t' ++ ' ' :: r)
    have hends : endsHeader (trim ('-' :: (t' ++ ' ' :: r))) = false := by
      rw [hx]
      rfl
    rw [List.cons_append, List.cons_append, hword, Option.bind_some]
    simp only [optionally_of_none hlabel]
    rw [hends]
    rfl
  · have hcw : isWordChar c = false := by
      simp only [List.mem_cons, List.not_mem_nil, or_false] at hc
      rcases hc with rfl | rfl | rfl | rfl | rfl
      · decide
      · decide
      · decide
      · decide
      · exact absurd rfl hco
    rw [List.cons_append, word?_cons_eq_none hcw]
    rfl

/-- What the line of a relation between classes is read as. -/
theorem read_relationLine {e : Edge α} (hs : IsWord e.source.toList)
    (ht : IsWord e.target.toList) (hl : ∀ l ∈ e.label, IsTidy l.toList)
    (hdir : e.source ≠ "direction") :
    Item.read (e.source.toList ++ ' ' :: ((relationToken e).toList ++
        ' ' :: (e.target.toList ++ colonLabel e.label))) =
      .relation ⟨e.source.toList, e.target.toList,
        writtenRelation e.startHead e.endHead e.isDashed, e.label⟩ := by
  have hdir' : e.source.toList ≠ "direction".toList := fun h => hdir (String.toList_inj.1 h)
  have hrel := classRelation?_written hs ht hl
  have hheader := classHeader?_relationToken e (e.target.toList ++ colonLabel e.label)
  obtain ⟨c, t, hct, hc, -⟩ := relationToken_cons e
  have hcb : isBlank c = false ∧ c ≠ '\x7b' := by
    simp only [List.mem_cons, List.not_mem_nil, or_false] at hc
    rcases hc with rfl | rfl | rfl | rfl | rfl <;> exact ⟨by decide, by decide⟩
  rw [hct, List.cons_append] at hrel hheader ⊢
  have hfree := isFree_name_token hs.isName hdir' hcb.1 hheader
  have hblock := entityBlock?_name_token hs.isName hcb.1 hcb.2
    (t ++ ' ' :: (e.target.toList ++ colonLabel e.label))
  generalize e.source.toList ++ ' ' :: c :: _ = s at hfree hblock hrel
  simp [Item.read, hfree.direction, hfree.remark, hfree.classHeader, hblock, hrel]

/-! ## Relations between entities -/

/-- The head that comes back of one written as a cardinality. -/
def writtenCardinality : ArrowHead → ArrowHead
  | .dot => .dot
  | .triangle => .triangle
  | .triangleOutline => .triangleOutline
  | _ => .bar

/-- The label of a relation between entities, which is never left out. -/
def quotedLabel (label : Option String) : List Char :=
  ' ' :: ':' :: ' ' :: '"' :: (Entity.encode (label.getD "").toList ++ ['"'])

/-- The line between two entities. -/
def lineText (dashed : Bool) : List Char := if dashed then ['.', '.'] else ['-', '-']

/-- What stands between the name of an entity and the name of another that it is related to. -/
def cardinalityText (e : Edge α) : List Char :=
  (Writer.Entity.startToken e.startHead).toList ++ (lineText e.isDashed
    ++ (Writer.Entity.endToken e.endHead).toList)

theorem cardinality?_startToken (head : ArrowHead) (r : List Char) :
    cardinality? '\x7d' ((Writer.Entity.startToken head).toList ++ r)
      = some (writtenCardinality head, r) := by
  cases head <;> rfl

theorem cardinality?_endToken (head : ArrowHead) (r : List Char) :
    cardinality? '\x7b' ((Writer.Entity.endToken head).toList ++ r)
      = some (writtenCardinality head, r) := by
  cases head <;> rfl

theorem token?_lineText (dashed : Bool) (r : List Char) :
    token? lineTokens (lineText dashed ++ r) = some (dashed, r) := by
  cases dashed <;> rfl

/-- A cardinality starts with a bar or a brace. -/
theorem cardinalityText_cons (e : Edge α) :
    ∃ c t, cardinalityText e = c :: t ∧ (c = '|' ∨ c = '\x7d') := by
  have hmem : Writer.Entity.startToken e.startHead ∈ ["|o", "\x7d|", "\x7do", "||"] := by
    cases e.startHead <;> decide
  simp only [List.mem_cons, List.not_mem_nil, or_false] at hmem
  unfold cardinalityText
  rcases hmem with h | h | h | h <;> rw [h]
  · exact ⟨_, _, rfl, .inl rfl⟩
  · exact ⟨_, _, rfl, .inr rfl⟩
  · exact ⟨_, _, rfl, .inr rfl⟩
  · exact ⟨_, _, rfl, .inl rfl⟩

theorem relationLabel?_quotedLabel {label : Option String} (h : ∀ l ∈ label, l.toList ≠ []) :
    relationLabel? (quotedLabel label) = some label := by
  rw [relationLabel?, quotedLabel, skipSpaces_space (by simp [isSpace])]
  cases label with
  | none => rfl
  | some l => simp [textAfterColon?, quotableLabel_quoted, h l rfl]

/-- A relation between entities is read whole. -/
theorem entityRelation?_written {e : Edge α} (hs : IsName e.source.toList)
    (ht : IsName e.target.toList) (hl : ∀ l ∈ e.label, l.toList ≠ []) :
    entityRelation? (e.source.toList ++ ' ' :: (cardinalityText e ++
        ' ' :: (e.target.toList ++ quotedLabel e.label))) =
      some ⟨e.source.toList, e.target.toList, ⟨writtenCardinality e.startHead,
        writtenCardinality e.endHead, e.isDashed⟩, e.label⟩ := by
  have hsp : isNameChar ' ' = false := by decide
  obtain ⟨c, t, hct, hc⟩ := cardinalityText_cons e
  have hspace : isSpace c = false := by
    rcases hc with rfl | rfl <;> decide
  rw [entityRelation?, name?_append hs (by simp [hsp]), Option.bind_some,
    skipSomeSpaces?_space (by simp [hct, hspace]), Option.bind_some]
  simp only [cardinalityText, List.append_assoc]
  rw [cardinality?_startToken, Option.bind_some, token?_lineText, Option.bind_some,
    cardinality?_endToken, Option.bind_some, skipSomeSpaces?_space (ht.isSpace_head _),
    Option.bind_some, name?_append ht (by simp [quotedLabel, hsp]), Option.bind_some,
    relationLabel?_quotedLabel hl, Option.map_some]

/-- What is left of a name and the cardinality behind it. -/
inductive BeforeCardinality (c : Char) (s : List Char) : List Char → Prop
  | inName {w : List Char} (hw : ∀ x ∈ w, isNameChar x = true) :
    BeforeCardinality c s (w ++ ' ' :: c :: s)
  | atCardinality : BeforeCardinality c s (c :: s)

section BeforeCardinality

variable {c : Char} {s r : List Char} (hc : c = '|' ∨ c = '\x7d')
include hc

theorem BeforeCardinality.skipSpaces (h : BeforeCardinality c s r) :
    BeforeCardinality c s (skipSpaces r) := by
  have hspace : isSpace c = false := by
    rcases hc with rfl | rfl <;> decide
  cases h with
  | inName hw =>
    rename_i w
    cases w with
    | nil =>
      rw [List.nil_append, skipSpaces_space (by simp [hspace])]
      exact .atCardinality
    | cons x w =>
      have hx := isSpace_of_isBlank_eq_false (isBlank_of_isNameChar (hw x (by simp)))
      rw [skipSpaces_eq_self (by simp [hx])]
      exact .inName hw
  | atCardinality =>
    rw [skipSpaces_eq_self (by simp [hspace])]
    exact .atCardinality

theorem BeforeCardinality.multiplicity (h : BeforeCardinality c s r) :
    optionally multiplicity? r = (none, r) := by
  have hq : c ≠ '"' := by
    rcases hc with rfl | rfl <;> decide
  cases h with
  | inName hw =>
    rename_i w
    cases w with
    | nil => exact not_quoted_cons (by decide) _
    | cons x w => exact not_quoted_cons (isNameChar_ne (hw x (by simp)) (by decide)) _
  | atCardinality => exact not_quoted_cons hq s

theorem BeforeCardinality.word? (h : BeforeCardinality c s r) {w t : List Char}
    (hw : word? r = some (w, t)) : BeforeCardinality c s t := by
  have hword : isWordChar c = false := by
    rcases hc with rfl | rfl <;> decide
  cases h with
  | inName hn =>
    rename_i n
    have hsplit := append_of_takeSome? hw
    have hww := isWord_of_word? hw
    rcases List.append_eq_append_iff.1 hsplit with ⟨a, hwa, hta⟩ | ⟨a, hna, hta⟩
    · -- the word would go on behind the name, where a space stands
      cases a with
      | nil =>
        rw [List.nil_append] at hta
        rw [← hta]
        exact .inName (w := []) (by simp)
      | cons x a =>
        obtain ⟨rfl, -⟩ := List.cons.inj hta
        exact absurd (hww.isWordChar ' ' (by rw [hwa]; simp)) (by decide)
    · rw [hta]
      exact .inName fun x hx => hn x (by rw [hna]; exact List.mem_append_right _ hx)
  | atCardinality =>
    rw [word?_cons_eq_none hword] at hw
    simp at hw

theorem BeforeCardinality.token? (h : BeforeCardinality c s r) {rel : Relation} {t : List Char}
    (ht : token? relationTokens r = some (rel, t)) : BeforeCardinality c s t := by
  obtain ⟨k, hk, hkt⟩ := List.exists_of_findSome?_eq_some ht
  obtain ⟨t', ha, heq⟩ := Option.map_eq_some_iff.1 hkt
  obtain ⟨-, rfl⟩ := Prod.mk.inj heq
  have hspace : ∀ x ∈ k.1.toList, (x != ' ') = true := by
    have hall : ∀ k ∈ relationTokens, ∀ x ∈ k.1.toList, (x != ' ') = true := by
      simp [relationTokens]
    exact hall k hk
  cases h with
  | inName hn =>
    rename_i n
    rw [after?_append_of_class hspace (by simp)] at ha
    obtain ⟨n', hn', rfl⟩ := Option.map_eq_some_iff.1 ha
    exact .inName fun x hx => hn x (subset_of_after? hn' hx)
  | atCardinality =>
    have hnone : token? relationTokens (c :: s) = none := by
      rcases hc with rfl | rfl <;> rfl
    rw [hnone] at ht
    simp at ht

theorem BeforeCardinality.relationLabel? (h : BeforeCardinality c s r) :
    relationLabel? r = none := by
  have hblank : isBlank c = false := by
    rcases hc with rfl | rfl <;> decide
  have hcolon : c ≠ ':' := by
    rcases hc with rfl | rfl <;> decide
  have hnone : ∀ (x : Char) (y : List Char), isBlank x = false → x ≠ ':' →
      textAfterColon? (x :: y) = none := by
    intro x y hx hne
    obtain ⟨z, hz⟩ := trim_cons hx y
    unfold textAfterColon?
    split
    · rename_i heq
      exact absurd (List.cons.inj heq).1 hne
    · rw [hz, if_neg (by simp)]
  have hskip := h.skipSpaces hc
  rw [Class.relationLabel?, Option.map_eq_none_iff]
  generalize Text.skipSpaces r = x at hskip
  cases hskip with
  | inName hn =>
    rename_i n
    cases n with
    | nil =>
      obtain ⟨z, hz⟩ := trim_cons hblank s
      have htrim : trim (' ' :: c :: s) ≠ [] := by
        rw [trim_space, hz]
        simp
      simp [textAfterColon?, htrim]
    | cons y n =>
      have hy := hn y (by simp)
      exact hnone y _ (isBlank_of_isNameChar hy) (isNameChar_ne hy (by decide))
  | atCardinality => exact hnone c s hblank hcolon

end BeforeCardinality

/-- A relation between entities is none between classes: wherever the token of such a one is found
in the first name, no second name and label follow. -/
theorem classRelation?_entity {w : List Char} (hw : IsName w) {c : Char}
    (hc : c = '|' ∨ c = '\x7d') (s : List Char) : classRelation? (w ++ ' ' :: c :: s) = none := by
  have h0 : BeforeCardinality c s (w ++ ' ' :: c :: s) := .inName hw.isNameChar
  unfold classRelation?
  cases h1 : word? (w ++ ' ' :: c :: s) with
  | none => rfl
  | some p =>
    have b1 := (h0.word? hc h1).skipSpaces hc
    rw [Option.bind_some, b1.multiplicity hc]
    cases h2 : token? relationTokens (skipSpaces p.2) with
    | none => rfl
    | some q =>
      have b2 := (b1.token? hc h2).skipSpaces hc
      rw [Option.bind_some, b2.multiplicity hc]
      cases h3 : word? (skipSpaces q.2) with
      | none => rfl
      | some u =>
        rw [Option.bind_some, (b2.word? hc h3).relationLabel? hc]
        rfl

/-- What the line of a relation between entities is read as. -/
theorem read_entityRelationLine {e : Edge α} (hs : IsName e.source.toList)
    (ht : IsName e.target.toList) (hl : ∀ l ∈ e.label, l.toList ≠ [])
    (hdir : e.source ≠ "direction") :
    Item.read (e.source.toList ++ ' ' :: (cardinalityText e ++
        ' ' :: (e.target.toList ++ quotedLabel e.label))) =
      .relation ⟨e.source.toList, e.target.toList, ⟨writtenCardinality e.startHead,
        writtenCardinality e.endHead, e.isDashed⟩, e.label⟩ := by
  have hdir' : e.source.toList ≠ "direction".toList := fun h => hdir (String.toList_inj.1 h)
  have hrel := entityRelation?_written hs ht hl
  obtain ⟨c, t, hct, hc⟩ := cardinalityText_cons e
  have hchars : isBlank c = false ∧ isWordChar c = false ∧ c ≠ '\x7b' := by
    rcases hc with rfl | rfl <;> exact ⟨by decide, by decide, by decide⟩
  rw [hct, List.cons_append] at hrel ⊢
  set u := t ++ ' ' :: (e.target.toList ++ quotedLabel e.label)
  have hheader : classHeader? (c :: u) = none := by
    rw [classHeader?, word?_cons_eq_none hchars.2.1]
    rfl
  have hfree := isFree_name_token hs hdir' hchars.1 hheader
  have hblock := entityBlock?_name_token hs hchars.1 hchars.2.2 u
  have hnone := classRelation?_entity hs hc u
  generalize e.source.toList ++ ' ' :: c :: u = s at hfree hblock hrel hnone
  simp [Item.read, hfree.direction, hfree.remark, hfree.classHeader, hblock, hnone, hrel]

/-! ## Members between braces -/

/-- A member whose line between braces is no closing brace, annotation or comment. -/
structure IsMemberLine (m : Member) : Prop where
  lineFeed_notMem : '\n' ∉ m.shown
  isContent : IsContent (trim m.shown)
  notBrace : startsWith "\x7d" (trim m.shown) = false
  notRemark : startsWith "<<" (trim m.shown) = false

/-- The line of a member between braces. -/
def memberLine (m : Member) : List Char := indent ++ indent ++ m.shown

theorem trim_memberLine (m : Member) : trim (memberLine m) = trim m.shown := by
  rw [memberLine, List.append_assoc, Writer.trim_indent, Writer.trim_indent]

/-- Sections with members added from their one-line forms. -/
def addMembers (kind : DiagramKind) (ms : List Member) (s : Sections) : Sections :=
  ms.foldl (fun s m => addToSections kind (trim m.shown) s) s

/-- The lines between the braces of the last class add their members to it. -/
theorem foldl_memberLines {ms : List Member} (hms : ∀ m ∈ ms, IsMemberLine m) (g : Diagram α)
    {ns : List (Node α)} {n : Node α} {s : Sections} (hg : g.nodes = ns ++ [n])
    (hn : n.id ∉ ns.map (·.id)) (hs : n.sections = some s) :
    (ms.map fun m => trim (memberLine m)).foldl Draft.readLine { diagram := g, owner := some n.id }
      = { diagram := { g with nodes := ns ++ [{ n with sections := some (addMembers g.kind ms s) }] }
          owner := some n.id } := by
  induction ms generalizing g n s with
  | nil =>
    have : n = { n with sections := some s } := by rw [← hs]
    simp [addMembers, ← this, ← hg]
  | cons m ms ih =>
    have hm := hms m List.mem_cons_self
    have hmem : (classNode n.id : Node α).id ∈ g.nodeIds := by
      simp [classNode, Diagram.nodeIds, hg]
    have hstep : Draft.readLine { diagram := g, owner := some n.id } (trim (memberLine m))
        = { diagram := { g with nodes := ns ++
              [{ n with sections := some (addToSections g.kind (trim m.shown) s) }] }
            owner := some n.id } := by
      rw [trim_memberLine, Draft.readLine]
      simp only [hm.notBrace, hm.notRemark, Bool.false_eq_true, if_false]
      rw [addMember, Diagram.ensureNode_of_mem hmem, Diagram.modifyNode_append _ hg hn, hs]
      rfl
    rw [List.map_cons, List.foldl_cons, hstep,
      ih (g := { g with nodes := ns ++ [{ n with sections := some (addToSections g.kind (trim m.shown) s) }] })
        (n := { n with sections := some (addToSections g.kind (trim m.shown) s) })
        (fun x hx => hms x (List.mem_cons_of_mem _ hx)) rfl hn rfl]
    rfl

/-- The members of a class. -/
def membersOf (n : Node α) : List Member := (n.sections.getD {}).members

/-- Whether the members of a class follow its line. -/
def opensBlock (n : Node α) : Bool := !(membersOf n).isEmpty

/-- The members that a class has after its members were read from their lines. -/
def withMembers (kind : DiagramKind) (base : Node α) (n : Node α) : Node α :=
  { base with sections := some (addMembers kind (membersOf n) {}) }

/-- A class without members has one line. -/
theorem blockLines_of_nil {n : Node α} (h : membersOf n = []) (start : List Char) :
    blockLines start n = [start] := by
  rw [membersOf] at h
  unfold blockLines
  cases hsec : n.sections with
  | none => rfl
  | some s =>
    rw [hsec, Option.getD_some] at h
    rw [Option.map_some, h]

/-- A class with members has them on lines of their own, between braces. -/
theorem blockLines_of_ne_nil {n : Node α} (h : membersOf n ≠ []) (start : List Char) :
    blockLines start n = (start ++ braceText true) :: (membersOf n).map memberLine
      ++ [indent ++ "\x7d".toList] := by
  rw [membersOf] at h ⊢
  unfold blockLines
  cases hsec : n.sections with
  | none => exact absurd (by rw [hsec]; rfl) h
  | some s =>
    rw [hsec, Option.getD_some] at h
    rw [Option.map_some, Option.getD_some]
    cases hmem : s.members with
    | nil => exact absurd hmem h
    | cons x xs => rfl

/-- The lines of a class and its members: what the first line makes of the class, with the members
added that follow. -/
theorem foldl_blockLines {n : Node α} {start : List Char} {g : Diagram α} {ns : List (Node α)}
    {m : Node α} (hms : ∀ x ∈ membersOf n, IsMemberLine x)
    (hstart : Draft.readLine { diagram := g } (trim (start ++ braceText (opensBlock n)))
      = { diagram := { g with nodes := ns ++ [m] }, owner := if opensBlock n then some m.id else none })
    (hm : m.id ∉ ns.map (·.id)) (hs : m.sections = some {}) :
    ((blockLines start n).map trim).foldl Draft.readLine { diagram := g }
      = { diagram := { g with nodes := ns ++
            [withMembers g.kind m n] } } := by
  by_cases hmem : membersOf n = []
  · have hopens : opensBlock n = false := by rw [opensBlock, hmem]; rfl
    have hm' : m = { m with sections := some {} } := by rw [← hs]
    rw [hopens, braceText, if_neg Bool.false_ne_true, List.append_nil] at hstart
    rw [blockLines_of_nil hmem, List.map_singleton, List.foldl_cons, List.foldl_nil, hstart]
    simp [withMembers, hmem, addMembers, ← hm']
  · have hopens : opensBlock n = true := by simpa [opensBlock] using hmem
    have hclose : trim (indent ++ "\x7d".toList) = ['\x7d'] := by
      rw [Writer.trim_indent]
      rfl
    rw [hopens] at hstart
    have hfold := foldl_memberLines hms { g with nodes := ns ++ [m] } rfl hm hs
    rw [blockLines_of_ne_nil hmem, List.map_append, List.map_cons, List.map_map, List.foldl_append,
      List.foldl_cons, hstart, Function.comp_def, if_pos rfl, hfold, List.map_singleton, hclose,
      List.foldl_cons, List.foldl_nil, withMembers]
    rfl

/-! ## The lines of a whole diagram -/

/-- The lines of classes that are new add these classes with their members. -/
theorem foldl_nodeLines (start : Node α → List Char) (base : Node α → Node α) {ns : List (Node α)}
    (hms : ∀ n ∈ ns, ∀ x ∈ membersOf n, IsMemberLine x)
    (hbase : ∀ n, (base n).id = n.id ∧ (base n).sections = some {})
    (hstart : ∀ n ∈ ns, ∀ g : Diagram α, n.id ∉ g.nodeIds →
      Draft.readLine { diagram := g } (trim (start n ++ braceText (opensBlock n)))
        = { diagram := { g with nodes := g.nodes ++ [base n] }
            owner := if opensBlock n then some n.id else none })
    (g : Diagram α) (hnodup : (g.nodeIds ++ ns.map (·.id)).Nodup) :
    ((ns.flatMap fun n => blockLines (start n) n).map trim).foldl Draft.readLine { diagram := g }
      = { diagram := { g with nodes := g.nodes ++ ns.map fun n => withMembers g.kind (base n) n } } := by
  induction ns generalizing g with
  | nil => simp
  | cons n ns ih =>
    have hnew : n.id ∉ g.nodeIds := fun hm =>
      (List.nodup_append.1 hnodup).2.2 _ hm _ (by simp) rfl
    have hstart' := hstart n List.mem_cons_self g hnew
    rw [← (hbase n).1] at hstart'
    rw [List.flatMap_cons, List.map_append, List.foldl_append,
      foldl_blockLines (hms n List.mem_cons_self) hstart' (by rw [(hbase n).1]; exact hnew) (hbase n).2,
      ih (fun m hm => hms m (List.mem_cons_of_mem _ hm))
        (fun m hm => hstart m (List.mem_cons_of_mem _ hm))]
    · simp
    · simpa [Diagram.nodeIds, withMembers, (hbase n).1] using hnodup

/-- The edges that come back of relations, numbered from `index` on. -/
def relationEdges (relation : Edge α → Relation) (index : Nat) (es : List (Edge α)) :
    List (Edge α) :=
  (es.zipIdx index).map fun p =>
    relationEdge p.2 ⟨p.1.source.toList, p.1.target.toList, relation p.1, p.1.label⟩

/-- The lines of relations between classes of a diagram add these relations. -/
theorem foldl_relationLines {line : Edge α → List Char} {relation : Edge α → Relation}
    {es : List (Edge α)}
    (hline : ∀ e ∈ es, Item.read (trim (line e))
      = .relation ⟨e.source.toList, e.target.toList, relation e, e.label⟩)
    (g : Diagram α) (hends : ∀ e ∈ es, e.source ∈ g.nodeIds ∧ e.target ∈ g.nodeIds) :
    (es.map fun e => trim (line e)).foldl Draft.readLine { diagram := g }
      = { diagram := { g with edges := g.edges ++ relationEdges relation g.edges.length es } } := by
  induction es generalizing g with
  | nil => simp [relationEdges]
  | cons e es ih =>
    obtain ⟨hs, ht⟩ := hends e List.mem_cons_self
    let edge : Edge α :=
      relationEdge g.edges.length ⟨e.source.toList, e.target.toList, relation e, e.label⟩
    have hstep : Draft.readLine { diagram := g } (trim (line e)) = { diagram := g.addEdge edge } := by
      rw [Draft.readLine, hline e List.mem_cons_self, Draft.apply]
      simp only [String.ofList_toList]
      rw [Diagram.ensureNode_of_mem (n := classNode e.source) hs,
        Diagram.ensureNode_of_mem (n := classNode e.target) ht]
    rw [List.map_cons, List.foldl_cons, hstep,
      ih (fun x hx => hline x (List.mem_cons_of_mem _ hx)) (g.addEdge edge)
        (fun x hx => hends x (List.mem_cons_of_mem _ hx))]
    simp [Diagram.addEdge, relationEdges, List.zipIdx_cons, edge]

end DiagramBoard.Grammar.Class
