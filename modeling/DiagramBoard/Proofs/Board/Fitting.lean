/-
DiagramBoard.Proofs.Board.Fitting — when what is drawn of a node fits its box.

A layout sizes the box of a node, and a pen draws into it.  Both measure labels alike, so a label
without members always fits.  For a class they use different tables.  The layout makes room for each
member below a header of one height.  The pen measures the texts of both sections, a blank where
there are no members, below a header as high as the label.  So the members of a small class are drawn
over the lower edge of its box.  All of this is about exact numbers.

Main statements: what is drawn of a class fits exactly if its label is not too wide and its parts
are not too high (`isFitted_classDrawing_iff`).  After a layout only the height is in question
(`isFitted_nodeDrawing_layout_iff`), and where everything takes one line there has to be a number of
members (`drawnHeight_le_sectionsHeight_iff`).
-/
import DiagramBoard.Board.Drawing.Node
import DiagramBoard.Proofs.Grammar.WellFormed
import DiagramBoard.Proofs.Layout.Clearance
import DiagramBoard.Proofs.Scalar

namespace DiagramBoard

/-! ## Line counts -/

namespace Text.Label

/-- The number of lines that a label takes. -/
def lineCount (label : List Char) : Nat := (lines label).length

theorem lineCount_pos (label : List Char) : 1 ≤ lineCount label := Nat.succ_pos _

theorem breakLength_le_length (s : List Char) : breakLength s ≤ s.length := by
  fun_cases breakLength s <;> simp

/-- No tag goes on with a line feed or an angle bracket, so the end of a text stays what it was. -/
theorem breakLength_append {s : List Char} (hs : s ≠ []) {c : Char} (hc : c = '\n' ∨ c = '<')
    (r : List Char) : breakLength (s ++ c :: r) = breakLength s := by
  -- a tag has six characters at most
  rcases s with _ | ⟨c₁, _ | ⟨c₂, _ | ⟨c₃, _ | ⟨c₄, _ | ⟨c₅, _ | ⟨c₆, s⟩⟩⟩⟩⟩⟩
  · exact absurd rfl hs
  all_goals
    simp only [List.cons_append, List.nil_append]
    rcases hc with rfl | rfl
    all_goals
      unfold breakLength
      grind [isTagName]

/-- Two texts with a line feed between them have the lines of both. -/
theorem lines_append_lineFeed (s r : List Char) : lines (s ++ '\n' :: r) = lines s ++ lines r := by
  fun_induction split s with
  | case1 =>
    have hfeed : breakLength ('\n' :: r) = 0 + 1 := rfl
    simp [lines, split_nil, split_cons_of_succ hfeed]
  | case2 c s h p ih =>
    have happend : breakLength (c :: (s ++ '\n' :: r)) = 0 :=
      (breakLength_append (List.cons_ne_nil c s) (.inl rfl) r).trans h
    simpa [lines, split_cons_of_zero h, split_cons_of_zero happend] using ih
  | case3 c s n h p ih =>
    have happend : breakLength (c :: (s ++ '\n' :: r)) = n + 1 :=
      (breakLength_append (List.cons_ne_nil c s) (.inl rfl) r).trans h
    have hn : n ≤ s.length := by
      have hle := breakLength_le_length (c :: s)
      rw [h, List.length_cons] at hle
      omega
    simpa [lines, split_cons_of_succ h, split_cons_of_succ happend,
      List.drop_append_of_le_length hn] using ih

/-- Texts with line feeds between them have the lines of all. -/
theorem lines_join_eq_flatMap (l : List Char) (ls : List (List Char)) :
    lines (join ['\n'] (l :: ls)) = (l :: ls).flatMap lines := by
  induction ls generalizing l with
  | nil => simp [join]
  | cons k ls ih =>
    have hjoin : join ['\n'] (l :: k :: ls) = l ++ '\n' :: join ['\n'] (k :: ls) := by simp [join]
    rw [hjoin, lines_append_lineFeed, ih k]
    rfl

/-- Texts with line feeds between them take the lines of all. -/
theorem lineCount_join (l : List Char) (ls : List (List Char)) :
    lineCount (join ['\n'] (l :: ls)) = ((l :: ls).map lineCount).sum := by
  rw [lineCount, lines_join_eq_flatMap, List.length_flatMap]
  rfl

end Text.Label

open Text.Label

/-! ## Boxes inside of boxes -/

/-- Whether a box is all inside of another. -/
structure Box.Contains (outer inner : Box Rat) : Prop where
  left : outer.x ≤ inner.x
  top : outer.y ≤ inner.y
  right : inner.right ≤ outer.right
  bottom : inner.bottom ≤ outer.bottom

theorem Box.Contains.refl (b : Box Rat) : b.Contains b := ⟨le_rfl, le_rfl, le_rfl, le_rfl⟩

theorem Box.contains_mk_iff {b : Box Rat} {x y width height : Rat} :
    b.Contains ⟨x, y, width, height⟩ ↔ b.x ≤ x ∧ b.y ≤ y ∧ x + width ≤ b.x + b.width
      ∧ y + height ≤ b.y + b.height :=
  ⟨fun h => ⟨h.left, h.top, h.right, h.bottom⟩,
    fun ⟨hleft, htop, hright, hbottom⟩ => ⟨hleft, htop, hright, hbottom⟩⟩

/-- What is put in the middle and is no longer stays inside. -/
theorem inside_of_centred (start : Rat) {extent size : Rat} (h : size ≤ extent) :
    start ≤ start + extent / 2 - size / 2
      ∧ start + extent / 2 - size / 2 + size ≤ start + extent := by
  constructor <;> linarith

/-- Whether all that is drawn of a node is inside of its container. -/
def NodeDrawing.IsFitted (d : NodeDrawing Rat) : Prop :=
  ∀ e ∈ d.elements, d.container.box.Contains e.box

theorem NodeDrawing.isFitted_iff (d : NodeDrawing Rat) :
    d.IsFitted ↔ ∀ b ∈ d.elements.map Element.box, d.container.box.Contains b :=
  List.forall_mem_map.symm

namespace Pen

/-! ## Nodes without members -/

variable {p : Pen Rat} {n : Node Rat} {s : Sections} {ids : NodeElements}

/-- The size of the label of a node. -/
def labelSize (p : Pen Rat) (n : Node Rat) : Size Rat :=
  Layout.textSize n.label.toList (p.fontSize n.style)

/-- A label fits a box that is no smaller. -/
theorem isFitted_plainDrawing (ids : NodeElements) {b : Box Rat} (hbox : n.box = some b)
    (hend : n.lifelineEnd = none)
    (hwidth : (p.labelSize n).width ≤ b.width) (hheight : (p.labelSize n).height ≤ b.height) :
    (p.plainDrawing n ids).IsFitted := by
  have hboxes : (p.plainDrawing n ids).elements.map Element.box
      = [b, ⟨b.x + b.width / 2 - (p.labelSize n).width / 2,
          b.y + b.height / 2 - (p.labelSize n).height / 2,
          (p.labelSize n).width, (p.labelSize n).height⟩] := by
    simp only [plainDrawing, NodeDrawing.elements, hbox, hend]
    rfl
  have hcontainer : (p.plainDrawing n ids).container.box = b := (List.cons.inj hboxes).1
  obtain ⟨hleft, hright⟩ := inside_of_centred b.x hwidth
  obtain ⟨htop, hbottom⟩ := inside_of_centred b.y hheight
  rw [NodeDrawing.isFitted_iff, hboxes, hcontainer, List.forall_mem_cons, List.forall_mem_singleton]
  exact ⟨.refl b, hleft, htop, hright, hbottom⟩

/-! ## Sections -/

/-- The number of lines that the section of some members takes, one if there are none. -/
def sectionLines (members : List Member) : Nat :=
  max 1 (members.map fun m => lineCount m.shown).sum

theorem lineCount_memberText (members : List Member) :
    lineCount (orBlank (memberText members)).toList = sectionLines members := by
  have hblank : ∀ text : String, lineCount (orBlank text).toList = lineCount text.toList := by
    intro text
    unfold orBlank
    split
    · next hempty => subst hempty; decide +kernel
    · rfl
  rw [hblank, memberText, String.toList_ofList]
  cases members with
  | nil => decide +kernel
  | cons m members =>
    have hm := lineCount_pos m.shown
    rw [List.map_cons, lineCount_join, sectionLines]
    simp only [List.map_cons, List.sum_cons, List.map_map, Function.comp_def]
    omega

theorem sectionLines_of_lineCount {members : List Member}
    (h : ∀ m ∈ members, lineCount m.shown = 1) : sectionLines members = max 1 members.length := by
  rw [sectionLines, List.map_congr_left h, List.map_const', List.sum_replicate_nat, Nat.mul_one]

theorem size_height_sectionOf (members : List Member) (fontSize : Rat) :
    (sectionOf members fontSize).size.height
      = (sectionLines members : Rat) * fontSize * 1.25 + 10 := by
  rw [← lineCount_memberText]
  rfl

/-- A section is as high as its text, also where it has no members. -/
theorem height_sectionOf (members : List Member) {fontSize : Rat} (hfont : 8 ≤ fontSize) :
    (sectionOf members fontSize).height = (sectionOf members fontSize).size.height
      ∧ 20 ≤ (sectionOf members fontSize).size.height := by
  have hlines : (1 : Rat) ≤ sectionLines members := by
    exact_mod_cast le_max_left 1 _
  have hsection : 20 ≤ (sectionOf members fontSize).size.height := by
    rw [size_height_sectionOf]
    nlinarith
  exact ⟨(Scalar.larger_eq_max ..).trans (max_eq_right hsection), hsection⟩

/-! ## Classes -/

/-- The boxes of a class: all of it, its title in a header of some height, and two sections, each
below a line. -/
def stack (b : Box Rat) (title : Size Rat) (header : Rat) (attributes methods : Size Rat) :
    List (Box Rat) :=
  let firstLine := b.y + header
  let secondLine := firstLine + 5 + attributes.height + 10
  [b, ⟨b.x + b.width / 2 - title.width / 2, b.y + 10, title.width, title.height⟩,
    ⟨b.x, firstLine, b.width, 1⟩,
    ⟨b.x + 10, firstLine + 5, attributes.width, attributes.height⟩,
    ⟨b.x, secondLine, b.width, 1⟩,
    ⟨b.x + 10, secondLine + 5, methods.width, methods.height⟩]

/-- The title and the methods alone decide whether the boxes of a class are inside of it. -/
theorem contains_stack_iff {b : Box Rat} {title attributes methods : Size Rat} {header : Rat}
    (hheader : max 40 (title.height + 20) ≤ header)
    (hattributes : attributes.width + 20 ≤ b.width ∧ 20 ≤ attributes.height)
    (hmethods : methods.width + 20 ≤ b.width ∧ 20 ≤ methods.height) :
    (∀ inner ∈ stack b title header attributes methods, b.Contains inner)
      ↔ title.width ≤ b.width ∧ header + attributes.height + methods.height + 20 ≤ b.height := by
  obtain ⟨hmin, htitle⟩ := max_le_iff.1 hheader
  constructor
  · intro h
    have hlabel := Box.contains_mk_iff.1 (h _ (List.mem_cons_of_mem _ List.mem_cons_self))
    have hlast := Box.contains_mk_iff.1 (h _ (List.mem_of_getLast? rfl))
    exact ⟨by linarith, by linarith⟩
  · rintro ⟨hwidth, hheight⟩
    obtain ⟨hleft, hright⟩ := inside_of_centred b.x hwidth
    simp only [stack, List.forall_mem_cons, List.not_mem_nil, false_imp_iff, implies_true, and_true,
      Box.contains_mk_iff]
    refine ⟨.refl b, ⟨hleft, ?_, hright, ?_⟩, ⟨le_rfl, ?_, le_rfl, ?_⟩, ⟨?_, ?_, ?_, ?_⟩,
      ⟨le_rfl, ?_, le_rfl, ?_⟩, ?_, ?_, ?_, ?_⟩ <;> linarith

theorem map_box_classDrawing
    (hsection : (sectionOf s.attributes (p.memberFont n)).height
      = (sectionOf s.attributes (p.memberFont n)).size.height) :
    (p.classDrawing n s ids).elements.map Element.box
      = stack (p.classDrawing n s ids).container.box (p.labelSize n) (headerHeight (p.labelSize n))
        (sectionOf s.attributes (p.memberFont n)).size
        (sectionOf s.methods (p.memberFont n)).size := by
  unfold stack classDrawing
  simp only [hsection]
  rfl

theorem headerHeight_eq (title : Size Rat) : headerHeight title = max 40 (title.height + 20) := by
  rw [headerHeight, Scalar.larger_eq_max]
  show max 40 (title.height + 10 * 2) = _
  norm_num

/-- The container of a class is as wide as its box was, or as its members need. -/
theorem width_classDrawing (p : Pen Rat) (n : Node Rat) (s : Sections) (ids : NodeElements) :
    (p.classDrawing n s ids).container.width
      = max (max ((n.box.map (·.width)).getD 200)
          ((sectionOf s.attributes (p.memberFont n)).size.width + 20))
        ((sectionOf s.methods (p.memberFont n)).size.width + 20) := by
  show classWidth n _ _ = _
  rw [classWidth, Scalar.larger_eq_max, Scalar.larger_eq_max]
  show max (max ((n.box.map (·.width)).getD 200) (_ + 10 * 2)) (_ + 10 * 2) = _
  norm_num

theorem container_classDrawing (p : Pen Rat) (s : Sections) (ids : NodeElements) {b : Box Rat}
    (hbox : n.box = some b) :
    b.width ≤ (p.classDrawing n s ids).container.width
      ∧ (p.classDrawing n s ids).container.height = b.height := by
  constructor
  · have hwidth := (width_classDrawing p n s ids).ge
    rw [hbox] at hwidth
    exact (max_le_iff.1 (max_le_iff.1 hwidth).1).1
  · show (n.box.map (·.height)).getD _ = _
    rw [hbox]
    rfl

/-- The height that the header and the sections of a class take. -/
def partsHeight (p : Pen Rat) (n : Node Rat) (s : Sections) : Rat :=
  headerHeight (p.labelSize n) + (sectionOf s.attributes (p.memberFont n)).height
    + (sectionOf s.methods (p.memberFont n)).height + 20

/-- What is drawn of a class fits exactly if its container is as wide as the label and as high as
all parts. -/
theorem isFitted_classDrawing_iff (hfont : 8 ≤ p.memberFont n) :
    (p.classDrawing n s ids).IsFitted
      ↔ (p.labelSize n).width ≤ (p.classDrawing n s ids).container.width
        ∧ p.partsHeight n s ≤ (p.classDrawing n s ids).container.height := by
  obtain ⟨hupper, hattributes⟩ := height_sectionOf s.attributes hfont
  obtain ⟨hlower, hmethods⟩ := height_sectionOf s.methods hfont
  have hwidth := (width_classDrawing p n s ids).ge
  rw [NodeDrawing.isFitted_iff, map_box_classDrawing hupper,
    contains_stack_iff (headerHeight_eq _).ge, partsHeight, hupper, hlower]
  · rfl
  · exact ⟨(max_le_iff.1 (max_le_iff.1 hwidth).1).2, hattributes⟩
  · exact ⟨(max_le_iff.1 hwidth).2, hmethods⟩

/-! ## Heights in the standard style -/

variable {d : Diagram Rat}

theorem memberFont_standard (hstyle : n.style = none) :
    (Pen.forDiagram .standard d).memberFont n = 18 := by
  have h : (20 : Rat) * 0.9 = 18 := by norm_num
  rw [← h, memberFont, fontSize, hstyle]
  rfl

theorem labelSize_standard (hstyle : n.style = none) :
    (Pen.forDiagram .standard d).labelSize n = Layout.textSize n.label.toList 20 := by
  rw [labelSize, fontSize, hstyle]
  rfl

/-- The height that the parts of a class take in the standard style. -/
def drawnHeight (n : Node Rat) (s : Sections) : Rat :=
  25 * lineCount n.label.toList
    + 22.5 * (sectionLines s.attributes + sectionLines s.methods : Nat) + 70

theorem partsHeight_standard (hstyle : n.style = none) :
    (Pen.forDiagram .standard d).partsHeight n s = drawnHeight n s := by
  have hfont : (8 : Rat) ≤ 18 := by norm_num
  have hlines : (1 : Rat) ≤ lineCount n.label.toList := by
    exact_mod_cast lineCount_pos _
  have hlabel : (Layout.textSize n.label.toList (20 : Rat)).height
      = (lineCount n.label.toList : Rat) * 20 * 1.25 + 10 := rfl
  rw [partsHeight, memberFont_standard hstyle, labelSize_standard hstyle, headerHeight_eq,
    (height_sectionOf _ hfont).1, (height_sectionOf _ hfont).1, size_height_sectionOf,
    size_height_sectionOf, hlabel, max_eq_right (by linarith), drawnHeight]
  push_cast
  ring

end Pen

namespace Layout

variable {options : Options Rat} {d : Diagram Rat} {n : Node Rat}

/-- In a new layout every node is as it was, but in a box of the size that it needs. -/
theorem exists_of_mem_layout (hkind : d.kind.strategy ≠ .lanes)
    (hnone : ∀ n ∈ d.nodes, n.box = none) (hn : n ∈ (d.layout .standard).nodes) :
    ∃ b, n.box = some b ∧ b.size = neededSize d.kind .standard n
      ∧ ∃ m ∈ d.nodes, n = { m with box := some b } := by
  have hnode : 20 < (Options.standard : Options Rat).nodeSep := by decide
  obtain ⟨boxes, hlayout, hspread⟩ :=
    isSpread_layout hkind hnode (by decide) (by decide) (by decide) (.inl hnone)
  rw [hlayout] at hn
  obtain ⟨⟨m, b⟩, hmem, rfl⟩ := List.mem_map.1 hn
  have hm : m ∈ d.nodes := (List.of_mem_zip hmem).1
  obtain ⟨i, hi, hpair⟩ := List.getElem_of_mem hmem
  rw [List.getElem_zip, Prod.mk.injEq] at hpair
  have hsize := List.getElem_of_eq hspread.size_eq (i := i) (by simp at hi ⊢; omega)
  rw [List.getElem_map, List.getElem_map, hpair.1, hpair.2, layoutSize, hnone m hm] at hsize
  exact ⟨b, rfl, hsize, m, hm, rfl⟩

/-- A node that has members exactly if its diagram has classes needs the size of a class. -/
theorem neededSize_eq_classSize {kind : DiagramKind}
    (hsections : n.sections.isSome = kind.isClassLike) :
    neededSize kind options n = classSize options n := by
  unfold neededSize
  split
  · rfl
  · next hstrategy =>
    have hnone : n.sections = none := by
      cases kind <;> simp_all [DiagramKind.strategy, DiagramKind.isClassLike]
    simp [classSize, hnone]

theorem textSize_add_le_nodeSize (options : Options Rat) (hstyle : n.style = none) :
    (textSize n.label.toList (20 : Rat)).width + 40 ≤ (nodeSize options n).width
      ∧ (textSize n.label.toList (20 : Rat)).height + 20 ≤ (nodeSize options n).height := by
  rw [nodeSize, hstyle]
  exact ⟨Scalar.le_larger_right _ _, Scalar.le_larger_right _ _⟩

theorem sectionsHeight_eq (attributes methods : Nat) :
    (sectionsHeight attributes methods : Rat)
      = (if attributes = 0 then 75 else 90) + 24 * (attributes + methods : Nat) := by
  show (if attributes = 0 then 40 + 20 + (attributes : Rat) * 24
    else 40 + 20 + (attributes : Rat) * 24 + 15) + ((methods : Rat) * 24 + 15) = _
  push_cast
  split <;> ring

/-- The box of a class is as high as the layout thinks that its sections are. -/
theorem classSize_eq {s : Sections} (hs : n.sections = some s) :
    (nodeSize (.standard : Options Rat) n).width ≤ (classSize .standard n).width
      ∧ (classSize (.standard : Options Rat) n).height
        = sectionsHeight s.attributes.length s.methods.length := by
  rw [classSize, hs]
  refine ⟨Scalar.le_larger_left _ _, (Scalar.larger_eq_max ..).trans (max_eq_right ?_)⟩
  have hcount : (0 : Rat) ≤ (s.attributes.length + s.methods.length : Nat) := Nat.cast_nonneg _
  show (60 : Rat) ≤ _
  rw [sectionsHeight_eq]
  split <;> linarith

end Layout

namespace Diagram

open Pen Layout

/-- What is drawn of a laid out node without members fits, and what is drawn of a class fits exactly
if its parts are as high as the layout thinks at most. -/
theorem isFitted_nodeDrawing_layout_iff {text : String} {d : Diagram Rat}
    (hparse : Diagram.parse text = .ok d) (hkind : d.kind.strategy ≠ .lanes) {n : Node Rat}
    (hn : n ∈ (d.layout .standard).nodes) (ids : NodeElements) :
    ((Pen.forDiagram .standard (d.layout .standard)).nodeDrawing n ids).IsFitted
      ↔ ∀ s ∈ n.sections,
        drawnHeight n s ≤ sectionsHeight s.attributes.length s.methods.length := by
  have hformed := isWellFormed_of_parse hparse
  obtain ⟨b, hbox, hsize, m, hm, heq⟩ := exists_of_mem_layout hkind hformed.box_eq hn
  have hplain := (isDescribed_of_parse hparse).nodes m hm
  have hstyle : n.style = none := heq ▸ hplain.style
  have hend : n.lifelineEnd = none := heq ▸ hplain.lifelineEnd
  rw [neededSize_eq_classSize (heq ▸ hformed.isSome_sections m hm)] at hsize
  have hwidth : b.width = (classSize .standard n).width := congrArg Size.width hsize
  have hheight : b.height = (classSize .standard n).height := congrArg Size.height hsize
  obtain ⟨hroom, hroom'⟩ := textSize_add_le_nodeSize .standard hstyle
  rw [← labelSize_standard (d := d.layout .standard) hstyle] at hroom hroom'
  unfold nodeDrawing
  cases hsections : n.sections with
  | none =>
    rw [classSize, hsections] at hwidth hheight
    dsimp only at hwidth hheight
    have hfitted := isFitted_plainDrawing ids hbox hend (by linarith) (by linarith)
    exact iff_of_true hfitted (by simp)
  | some s =>
    obtain ⟨hwider, hheight'⟩ := classSize_eq hsections
    have hfont : 8 ≤ (Pen.forDiagram .standard (d.layout .standard)).memberFont n := by
      rw [memberFont_standard hstyle]
      norm_num
    obtain ⟨hlarge, hsame⟩ :=
      container_classDrawing (.forDiagram .standard (d.layout .standard)) s ids hbox
    dsimp only
    rw [isFitted_classDrawing_iff hfont, partsHeight_standard hstyle, hsame, hheight, hheight',
      and_iff_right (by linarith)]
    simp

/-- What is drawn of a class where everything takes one line fits exactly if there are enough
members: 29 methods if there are no attributes, 19 attributes if there are no methods, and four of
both together. -/
theorem drawnHeight_le_sectionsHeight_iff {n : Node Rat} {s : Sections}
    (hlabel : lineCount n.label.toList = 1) (hmembers : ∀ m ∈ s.members, lineCount m.shown = 1) :
    drawnHeight n s ≤ sectionsHeight s.attributes.length s.methods.length
      ↔ if s.attributes.length = 0 then 29 ≤ s.methods.length
        else if s.methods.length = 0 then 19 ≤ s.attributes.length
        else 4 ≤ s.attributes.length + s.methods.length := by
  have hattributes := sectionLines_of_lineCount fun m hm => hmembers m (List.mem_append_left _ hm)
  have hmethods := sectionLines_of_lineCount fun m hm => hmembers m (List.mem_append_right _ hm)
  rw [drawnHeight, hlabel, hattributes, hmethods, sectionsHeight_eq]
  generalize s.attributes.length = a, s.methods.length = m
  -- twice the heights are whole numbers
  have htwice : (25 * ((1 : Nat) : Rat) + 22.5 * (max 1 a + max 1 m : Nat) + 70
        ≤ (if a = 0 then 75 else 90) + 24 * (a + m : Nat))
      ↔ 190 + 45 * (max 1 a + max 1 m) ≤ (if a = 0 then 150 else 180) + 48 * (a + m) := by
    rw [← Nat.cast_le (α := Rat)]
    split <;> push_cast <;> constructor <;> intro h <;> linarith
  rw [htwice]
  split_ifs <;> omega

/-- A class without members is always drawn over the lower edge of its box. -/
theorem not_isFitted_of_members_eq_nil {text : String} {d : Diagram Rat}
    (hparse : Diagram.parse text = .ok d) (hkind : d.kind.strategy ≠ .lanes) {n : Node Rat}
    (hn : n ∈ (d.layout .standard).nodes) {s : Sections} (hs : n.sections = some s)
    (hmembers : s.members = []) (ids : NodeElements) :
    ¬ ((Pen.forDiagram .standard (d.layout .standard)).nodeDrawing n ids).IsFitted := by
  obtain ⟨hattributes, hmethods⟩ := List.append_eq_nil_iff.1 hmembers
  have hlines : (1 : Rat) ≤ lineCount n.label.toList := by
    exact_mod_cast lineCount_pos _
  intro hfitted
  have hheight := (isFitted_nodeDrawing_layout_iff hparse hkind hn ids).1 hfitted s hs
  have hsections : sectionLines [] = 1 := rfl
  rw [drawnHeight, hattributes, hmethods, hsections, sectionsHeight_eq, List.length_nil,
    if_pos rfl] at hheight
  norm_num at hheight
  linarith

theorem map_sections_layout (options : Options Rat) (d : Diagram Rat) :
    (d.layout options).nodes.map (·.sections) = d.nodes.map (·.sections) := by
  have hcontent := congrArg (fun e => e.nodes.map (·.sections)) (content_layout options d)
  simp only [content, List.map_map] at hcontent
  exact hcontent

/-- A class without members. -/
def emptyClass : String := "classDiagram\nclass Empty\n"

/-- The diagram of a class without members is drawn over the lower edge of a box. -/
theorem not_isFitted_emptyClass : ∃ d : Diagram Rat, Diagram.parse emptyClass = .ok d
    ∧ d.kind = .classes ∧ ∃ n ∈ (d.layout .standard).nodes, ∀ ids,
      ¬ ((Pen.forDiagram .standard (d.layout .standard)).nodeDrawing n ids).IsFitted := by
  have hread : ((Diagram.parse emptyClass : Except SyntaxError (Diagram Rat)).toOption.map fun d =>
      (d.kind, d.nodes.map (·.sections))) = some (.classes, [some {}]) := by
    decide +kernel
  cases hparse : (Diagram.parse emptyClass : Except SyntaxError (Diagram Rat)) with
  | error e => simp [hparse, Except.toOption] at hread
  | ok d =>
    rw [hparse, Except.toOption, Option.map_some, Option.some.injEq, Prod.mk.injEq] at hread
    obtain ⟨hclasses, hsections⟩ := hread
    have hkind : d.kind.strategy ≠ .lanes := by
      rw [hclasses]
      decide
    have hmem : some {} ∈ (d.layout .standard).nodes.map (·.sections) := by
      rw [map_sections_layout, hsections]
      exact List.mem_singleton_self _
    obtain ⟨n, hn, hs⟩ := List.mem_map.1 hmem
    exact ⟨d, rfl, hclasses, n, hn, not_isFitted_of_members_eq_nil hparse hkind hn hs rfl⟩

end Diagram

end DiagramBoard
