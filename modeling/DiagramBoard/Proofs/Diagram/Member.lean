/-
DiagramBoard.Proofs.Diagram.Member — what a line says of a member.

A line spells a member if it is the member's text, behind the mark of its visibility if it has one,
and in front of any number of the two closing marks in any order, with blanks anywhere between these
parts.  Whether a mark stands there counts, not how often or where.  The text itself must leave the
reader nothing to take off: it does not start in a blank or end in a blank or a closing mark, and only
behind a mark of visibility does it start with such a mark itself.

A line is read as exactly that member.  The one-line form is one of the spellings, so a member that was
read once is read again from its one-line form, and the one-line forms of several members are read
from the lines of one text.

Main statements: the closing marks come off in any order and number (`peel_dropWhile_append`); a line
is read as the member that it spells and as no other (`parse?_eq_some_iff`), and as none if there is
nothing but marks and blanks (`parse?_eq_none_iff`); and members that were read come back from their
one-line forms, one by one and together (`comesBack_shown`).
-/
import DiagramBoard.Diagram.Member
import DiagramBoard.Proofs.Grammar.Lines

namespace DiagramBoard.Member

open Text

/-! ## Marks at the end -/

theorem peel_dollar (r : List Char) : peel ('$' :: r) = (peel (r.dropWhile isBlank)).static := by
  rw [peel]

theorem peel_star (r : List Char) : peel ('*' :: r) = (peel (r.dropWhile isBlank)).abstract := by
  rw [peel]

/-- A text that does not end in a mark keeps all of itself. -/
theorem peel_eq_self {r : List Char} (h : ∀ c ∈ r.head?, c ≠ '$' ∧ c ≠ '*') :
    peel r = { reversed := r } := by
  unfold peel
  split
  · exact absurd rfl (h '$' (by simp)).1
  · exact absurd rfl (h '*' (by simp)).2
  · rfl

/-- What remains does not end in a mark. -/
theorem head?_peel (r : List Char) : ∀ c ∈ (peel r).reversed.head?, c ≠ '$' ∧ c ≠ '*' := by
  fun_induction peel r with
  | case1 r ih => exact ih
  | case2 r ih => exact ih
  | case3 r h1 h2 =>
    intro c hc
    cases r with
    | nil => simp at hc
    | cons d r =>
      obtain rfl : d = c := by simpa using hc
      exact ⟨fun e => h1 r (by rw [e]), fun e => h2 r (by rw [e])⟩

/-- What remains does not end in a blank if the text does not. -/
theorem isBlank_head?_peel {r : List Char} (h : ∀ c ∈ r.head?, isBlank c = false) :
    ∀ c ∈ (peel r).reversed.head?, isBlank c = false := by
  fun_induction peel r with
  | case1 r ih => exact ih (head?_dropWhile_isBlank r)
  | case2 r ih => exact ih (head?_dropWhile_isBlank r)
  | case3 r => exact h

theorem dropWhile_isBlank_eq_self {r : List Char} (h : ∀ c ∈ r.head?, isBlank c = false) :
    r.dropWhile isBlank = r :=
  trimStart_eq_self h

/-- Whether a text is made of closing marks and blanks. -/
def IsClosing (ms : List Char) : Prop := ∀ c ∈ ms, c = '$' ∨ c = '*' ∨ isBlank c = true

/-- Closing marks come off in any order and number, with blanks between them, and only which of them
there were is kept. -/
theorem peel_dropWhile_append {ms r : List Char} (hms : IsClosing ms)
    (hr : ∀ c ∈ r.head?, isBlank c = false ∧ c ≠ '$' ∧ c ≠ '*') :
    peel ((ms ++ r).dropWhile isBlank) = ⟨r, ms.contains '$', ms.contains '*'⟩ := by
  induction ms with
  | nil =>
    rw [List.nil_append, dropWhile_isBlank_eq_self fun c hc => (hr c hc).1,
      peel_eq_self fun c hc => (hr c hc).2]
    rfl
  | cons c ms ih =>
    have ih := ih fun d hd => hms d (List.mem_cons_of_mem _ hd)
    rw [List.cons_append]
    rcases hms c List.mem_cons_self with rfl | rfl | hc
    · rw [List.dropWhile_cons_of_neg (by decide), peel_dollar, ih]
      simp [Peeled.static]
    · rw [List.dropWhile_cons_of_neg (by decide), peel_star, ih]
      simp [Peeled.abstract]
    · have hne : '$' ≠ c ∧ '*' ≠ c := by
        constructor <;> rintro rfl <;> exact absurd hc (by decide)
      rw [List.dropWhile_cons_of_pos hc, ih]
      simp [hne.1, hne.2]

/-- So a text that does not end in a blank is what remains of it, with closing marks behind. -/
theorem exists_eq_append_closing {body : List Char} (hbody : ∀ c ∈ body.getLast?, isBlank c = false) :
    ∃ text closing, body = text ++ closing ∧ IsClosing closing
      ∧ (∀ c ∈ text.getLast?, isBlank c = false ∧ c ≠ '$' ∧ c ≠ '*')
      ∧ peel body.reverse = ⟨text.reverse, closing.contains '$', closing.contains '*'⟩ := by
  have hbody' : ∀ c ∈ body.reverse.head?, isBlank c = false := by simpa using hbody
  obtain ⟨ms, hms, hclosing⟩ := peel_suffix body.reverse
  have hlast : ∀ c ∈ (peel body.reverse).reversed.head?, isBlank c = false ∧ c ≠ '$' ∧ c ≠ '*' :=
    fun c hc => ⟨isBlank_head?_peel hbody' c hc, head?_peel _ c hc⟩
  have hpeel := peel_dropWhile_append hclosing hlast
  rw [← hms, dropWhile_isBlank_eq_self hbody'] at hpeel
  refine ⟨(peel body.reverse).reversed.reverse, ms.reverse, ?_, ?_, ?_, ?_⟩
  · rw [← List.reverse_append, ← hms, List.reverse_reverse]
  · exact fun c hc => hclosing c (List.mem_reverse.1 hc)
  · simpa using hlast
  · simpa using hpeel

/-! ## The mark in front -/

theorem isBlank_mark (v : Visibility) : isBlank v.mark = false := by
  cases v <;> decide

theorem mark_of_ofMark? {c : Char} {v : Visibility} (h : Visibility.ofMark? c = some v) :
    v.mark = c := by
  unfold Visibility.ofMark? at h
  split at h
  · exact Option.some.inj h ▸ rfl
  · exact Option.some.inj h ▸ rfl
  · exact Option.some.inj h ▸ rfl
  · exact Option.some.inj h ▸ rfl
  · cases h

/-- The mark of a visibility, or nothing. -/
def markOf (v : Option Visibility) : List Char := v.toList.map Visibility.mark

/-- The visibility that a trimmed line starts with. -/
def visibilityOf? (s : List Char) : Option Visibility := s.head?.bind Visibility.ofMark?

/-- A trimmed line behind the mark of its visibility. -/
def behindMark (s : List Char) : List Char :=
  if (visibilityOf? s).isSome then trimStart (s.drop 1) else s

theorem parse?_eq (line : List Char) :
    parse? line =
      if (peel (behindMark (trim line)).reverse).reversed = [] then none
      else some ({ text := String.ofList (peel (behindMark (trim line)).reverse).reversed.reverse
                   visibility := visibilityOf? (trim line)
                   isStatic := (peel (behindMark (trim line)).reverse).isStatic
                   isAbstract := (peel (behindMark (trim line)).reverse).isAbstract },
        (peel (behindMark (trim line)).reverse).reversed.contains '(') := rfl

/-- What is read of a line where a text remains. -/
theorem parse?_of_peel {line text : List Char} {isStatic isAbstract : Bool}
    (h : peel (behindMark (trim line)).reverse = ⟨text.reverse, isStatic, isAbstract⟩) :
    parse? line =
      if text = [] then none
      else some (⟨String.ofList text, visibilityOf? (trim line), isStatic, isAbstract⟩,
        text.contains '(') := by
  rw [parse?_eq, h]
  simp

/-- A line starts with the mark of its visibility, or is as it was. -/
theorem exists_eq_mark_append (s : List Char) :
    ∃ gap, s = markOf (visibilityOf? s) ++ gap ++ behindMark s ∧ (∀ c ∈ gap, isBlank c = true)
      ∧ (visibilityOf? s = none → gap = [] ∧ behindMark s = s) := by
  cases hv : visibilityOf? s with
  | none =>
    have hbehind : behindMark s = s := by rw [behindMark, hv]; rfl
    exact ⟨[], by rw [hbehind]; rfl, by simp, fun _ => ⟨rfl, hbehind⟩⟩
  | some v =>
    obtain ⟨c, hc, hmark⟩ := Option.bind_eq_some_iff.1 hv
    obtain ⟨r, rfl⟩ := List.head?_eq_some_iff.1 hc
    refine ⟨r.takeWhile isBlank, ?_, fun d hd => List.mem_takeWhile_imp hd, by simp⟩
    simp [markOf, behindMark, hv, mark_of_ofMark? hmark, trimStart]

/-- Behind a mark and blanks there is what does not start in a blank, and a text without a mark starts
with none. -/
theorem of_mark_append {v : Option Visibility} {gap body : List Char}
    (hgap : ∀ c ∈ gap, isBlank c = true) (hnone : v = none → gap = [])
    (hbody : ∀ c ∈ body.head?, isBlank c = false)
    (hmark : v = none → ∀ c ∈ body.head?, Visibility.ofMark? c = none) :
    visibilityOf? (markOf v ++ gap ++ body) = v ∧ behindMark (markOf v ++ gap ++ body) = body := by
  cases v with
  | none =>
    have hvis : visibilityOf? body = none := Option.bind_eq_none_iff.2 (hmark rfl)
    simp [markOf, hnone rfl, hvis, behindMark]
  | some v =>
    have hvis : visibilityOf? (markOf (some v) ++ gap ++ body) = some v := by
      simp [visibilityOf?, markOf]
    refine ⟨hvis, ?_⟩
    rw [behindMark, hvis, Option.isSome_some, if_pos rfl]
    show trimStart (gap ++ body) = body
    rw [trimStart, List.dropWhile_append_of_pos hgap, dropWhile_isBlank_eq_self hbody]

/-- Behind its mark a trimmed line starts and ends in no blank. -/
theorem isBlank_behindMark (line : List Char) :
    (∀ c ∈ (behindMark (trim line)).head?, isBlank c = false)
      ∧ ∀ c ∈ (behindMark (trim line)).getLast?, isBlank c = false := by
  obtain ⟨gap, hs, -⟩ := exists_eq_mark_append (trim line)
  constructor
  · unfold behindMark
    split
    · exact head?_dropWhile_isBlank _
    · exact trim_head line
  · intro c hc
    refine trim_last line c ?_
    have hne : behindMark (trim line) ≠ [] := fun e => by simp [e] at hc
    rwa [hs, List.getLast?_append_of_ne_nil _ hne]

/-! ## Lines that spell a member -/

/-- Whether a member leaves the reader of a line nothing to take off its text. -/
structure IsReadable (m : Member) : Prop where
  ne_nil : m.text.toList ≠ []
  start : ∀ c ∈ m.text.toList.head?, isBlank c = false
  unmarked : m.visibility = none → ∀ c ∈ m.text.toList.head?, Visibility.ofMark? c = none
  finish : ∀ c ∈ m.text.toList.getLast?, isBlank c = false ∧ c ≠ '$' ∧ c ≠ '*'

/-- Whether closing marks and blanks say which marks a member has. -/
structure Closes (closing : List Char) (m : Member) : Prop where
  isClosing : IsClosing closing
  isStatic : m.isStatic = closing.contains '$'
  isAbstract : m.isAbstract = closing.contains '*'

/-- Whether a line is the text of a member with its marks in front and behind, and blanks between
them. -/
def Spells (line : List Char) (m : Member) : Prop :=
  ∃ before gap closing, line = before ++ (markOf m.visibility ++ gap ++ (m.text.toList ++ closing))
    ∧ (∀ c ∈ before, isBlank c = true) ∧ (∀ c ∈ gap, isBlank c = true)
    ∧ (m.visibility = none → gap = []) ∧ Closes closing m

variable {m : Member} {line : List Char} {isMethod : Bool}

/-- Further blanks behind the marks change nothing. -/
theorem Closes.append_blank {closing e : List Char} (h : Closes closing m)
    (he : ∀ c ∈ e, isBlank c = true) : Closes (closing ++ e) m := by
  have hnot : ∀ mark, isBlank mark = false → (closing ++ e).contains mark = closing.contains mark := by
    intro mark hmark
    have hnone : mark ∉ e := fun hm => by simp [he mark hm] at hmark
    simp [hnone]
  refine ⟨fun c hc => ?_, ?_, ?_⟩
  · rcases List.mem_append.1 hc with hc | hc
    · exact h.isClosing c hc
    · exact .inr (.inr (he c hc))
  · rw [hnot '$' (by decide), h.isStatic]
  · rw [hnot '*' (by decide), h.isAbstract]

/-- The blanks around a line that spells a member are gone when it is trimmed, and so are those behind
its last mark. -/
theorem trim_spelling (hm : m.IsReadable) {before gap closing : List Char}
    (hbefore : ∀ c ∈ before, isBlank c = true) (hnone : m.visibility = none → gap = []) :
    trim (before ++ (markOf m.visibility ++ gap ++ (m.text.toList ++ closing)))
      = markOf m.visibility ++ gap ++ (m.text.toList ++ trimEnd closing) := by
  have hstart : ∀ c ∈ (markOf m.visibility ++ gap ++ (m.text.toList ++ closing)).head?,
      isBlank c = false := by
    cases hv : m.visibility with
    | none =>
      rw [hnone hv, markOf, List.append_nil, Option.toList_none, List.map_nil, List.nil_append,
        List.head?_append_of_ne_nil _ hm.ne_nil]
      exact hm.start
    | some v => simp [markOf, isBlank_mark]
  have hfinish : ∀ c ∈ (markOf m.visibility ++ gap ++ m.text.toList).getLast?, isBlank c = false := by
    rw [List.getLast?_append_of_ne_nil _ hm.ne_nil]
    exact fun c hc => (hm.finish c hc).1
  rw [trim_append_of_blank hbefore, trim, trimStart_eq_self hstart, ← List.append_assoc,
    trimEnd_append hfinish, List.append_assoc]

/-- Closing marks come off the text of a member. -/
theorem peel_reverse_append (hm : m.IsReadable) {closing : List Char} (h : Closes closing m) :
    peel (m.text.toList ++ trimEnd closing).reverse
      = ⟨m.text.toList.reverse, m.isStatic, m.isAbstract⟩ := by
  have hreverse : (m.text.toList ++ trimEnd closing).reverse
      = (closing.reverse ++ m.text.toList.reverse).dropWhile isBlank := by
    rw [← trimEnd_append fun c hc => (hm.finish c hc).1, trimEnd, List.reverse_reverse,
      List.reverse_append]
  rw [hreverse, peel_dropWhile_append, h.isStatic, h.isAbstract]
  · simp
  · exact fun c hc => h.isClosing c (List.mem_reverse.1 hc)
  · simpa using hm.finish

/-- A member is read from a line that spells it. -/
theorem parse?_of_spells (hm : m.IsReadable) (h : Spells line m) :
    parse? line = some (m, m.text.toList.contains '(') := by
  obtain ⟨before, gap, closing, rfl, hbefore, hgap, hnone, hcloses⟩ := h
  have hhead : ∀ c ∈ (m.text.toList ++ trimEnd closing).head?, c ∈ m.text.toList.head? :=
    fun c hc => by rwa [List.head?_append_of_ne_nil _ hm.ne_nil] at hc
  obtain ⟨hvisibility, hbehind⟩ := of_mark_append hgap hnone (fun c hc => hm.start c (hhead c hc))
    fun hv c hc => hm.unmarked hv c (hhead c hc)
  have hpeel := peel_reverse_append hm hcloses
  rw [← hbehind, ← trim_spelling hm hbefore hnone] at hpeel
  rw [parse?_of_peel hpeel, trim_spelling hm hbefore hnone, hvisibility, if_neg hm.ne_nil,
    String.ofList_toList]

/-- A line that is read spells what it is read as. -/
theorem of_parse? (h : parse? line = some (m, isMethod)) :
    m.IsReadable ∧ Spells line m ∧ isMethod = m.text.toList.contains '(' := by
  obtain ⟨before, after, hline, hbefore, hafter⟩ := exists_eq_append_trim line
  obtain ⟨gap, htrim, hgap, hnone⟩ := exists_eq_mark_append (trim line)
  obtain ⟨hstart, hfinish⟩ := isBlank_behindMark line
  obtain ⟨text, closing, hbody, hclosing, hlast, hpeel⟩ := exists_eq_append_closing hfinish
  rw [parse?_of_peel hpeel] at h
  split at h
  · cases h
  · next hne =>
    obtain ⟨rfl, rfl⟩ := Prod.mk.inj (Option.some.inj h)
    have hhead : (behindMark (trim line)).head? = text.head? := by
      rw [hbody, List.head?_append_of_ne_nil _ hne]
    have htext : (String.ofList text).toList = text := String.toList_ofList
    refine ⟨⟨?_, ?_, ?_, ?_⟩, ⟨before, gap, closing ++ after, ?_, hbefore, hgap, fun hv => (hnone hv).1,
      Closes.append_blank ⟨hclosing, rfl, rfl⟩ hafter⟩, ?_⟩
    · rwa [htext]
    · rwa [htext, ← hhead]
    · intro hv c hc
      rw [htext, ← hhead, (hnone hv).2] at hc
      exact Option.bind_eq_none_iff.1 hv c hc
    · rwa [htext]
    · rw [htext]
      conv_lhs => rw [hline, htrim, hbody]
      simp
    · rw [htext]

/-- A line is read as the member that it spells, and as no other. -/
theorem parse?_eq_some_iff : parse? line = some (m, isMethod)
    ↔ m.IsReadable ∧ Spells line m ∧ isMethod = m.text.toList.contains '(' := by
  constructor
  · exact of_parse?
  · rintro ⟨hm, hs, rfl⟩
    exact parse?_of_spells hm hs

/-- A line is no member exactly if there are only closing marks and blanks behind the mark of its
visibility. -/
theorem parse?_eq_none_iff : parse? line = none ↔ IsClosing (behindMark (trim line)) := by
  constructor
  · intro h
    obtain ⟨text, closing, hbody, hclosing, -, hpeel⟩ :=
      exists_eq_append_closing (isBlank_behindMark line).2
    rw [parse?_of_peel hpeel] at h
    split at h
    · next hnil => rwa [hbody, hnil, List.nil_append]
    · cases h
  · intro h
    have hclosing : IsClosing (behindMark (trim line)).reverse := fun c hc =>
      h c (List.mem_reverse.1 hc)
    have hpeel := peel_dropWhile_append (r := []) hclosing (by simp)
    rw [List.append_nil,
      dropWhile_isBlank_eq_self (by simpa using (isBlank_behindMark line).2)] at hpeel
    rw [@parse?_of_peel line [] _ _ hpeel, if_pos rfl]

/-! ## The one-line form -/

/-- The marks that the one-line form of a member ends in. -/
def marks (m : Member) : List Char :=
  (if m.isStatic then ['$'] else []) ++ (if m.isAbstract then ['*'] else [])

theorem closes_marks (m : Member) : Closes (marks m) m := by
  obtain ⟨text, visibility, isStatic, isAbstract⟩ := m
  cases isStatic <;> cases isAbstract <;> exact ⟨by simp [IsClosing, marks], rfl, rfl⟩

theorem trimEnd_marks (m : Member) : trimEnd (marks m) = marks m := by
  obtain ⟨text, visibility, isStatic, isAbstract⟩ := m
  cases isStatic <;> cases isAbstract <;> rfl

theorem shown_eq (m : Member) :
    m.shown = [] ++ (markOf m.visibility ++ [] ++ (m.text.toList ++ marks m)) := by
  simp [shown, markOf, marks]

/-- The one-line form of a member spells it, without a blank between its parts. -/
theorem spells_shown (m : Member) : Spells m.shown m :=
  ⟨[], [], marks m, shown_eq m, by simp, by simp, fun _ => rfl, closes_marks m⟩

/-- A member that was read is read again from its one-line form, as an attribute or a method as it
was. -/
theorem parse?_shown (h : parse? line = some (m, isMethod)) : parse? m.shown = some (m, isMethod) := by
  obtain ⟨hm, -, rfl⟩ := of_parse? h
  exact parse?_of_spells hm (spells_shown m)

/-- The one-line form of a member that was read is trimmed. -/
theorem trim_shown (h : parse? line = some (m, isMethod)) : trim m.shown = m.shown := by
  obtain ⟨hm, -, -⟩ := of_parse? h
  conv_lhs => rw [shown_eq, trim_spelling hm (by simp) fun _ => rfl, trimEnd_marks]
  rw [shown_eq, List.nil_append]

theorem shown_ne_nil (h : parse? line = some (m, isMethod)) : m.shown ≠ [] := by
  obtain ⟨hm, -, -⟩ := of_parse? h
  simp [shown_eq, hm.ne_nil]

/-- A line has the characters of the member that is read of it. -/
theorem text_subset (h : parse? line = some (m, isMethod)) : m.text.toList ⊆ line := by
  obtain ⟨-, ⟨before, gap, closing, rfl, -⟩, -⟩ := of_parse? h
  intro c hc
  simp [hc]

/-- The one-line form of a member that was read has no line feed if its line has none. -/
theorem lineFeed_notMem_shown (hl : '\n' ∉ line) (h : parse? line = some (m, isMethod)) :
    '\n' ∉ m.shown := by
  have ht : '\n' ∉ m.text.toList := fun hm => hl (text_subset h hm)
  have hv : ∀ v : Visibility, '\n' ≠ v.mark := by
    intro v
    cases v <;> decide
  unfold shown
  cases m.visibility <;> cases m.isStatic <;> cases m.isAbstract <;> simp [ht, hv]

/-! ## Members on several lines -/

/-- Members that are read again from their one-line forms, each of them one line, are read from the
lines of a text. -/
theorem parseLines_join_shown {ms : List Member}
    (h : ∀ m ∈ ms, (parse? m.shown).map (·.1) = some m ∧ '\n' ∉ m.shown) :
    parseLines (join ['\n'] (ms.map shown)) = ms := by
  have hlines : lines (join ['\n'] (ms.map shown)) = ms.map shown := by
    refine lines_join fun l hl => ?_
    obtain ⟨m, hm, rfl⟩ := List.mem_map.1 hl
    refine ⟨(h m hm).2, fun hempty => ?_⟩
    have hparse := (h m hm).1
    rw [hempty, parse?_eq_none_iff.2 (by simp [IsClosing, behindMark, visibilityOf?])] at hparse
    cases hparse
  rw [parseLines, hlines, List.filterMap_map]
  exact (List.filterMap_congr fun m hm => (h m hm).1).trans List.filterMap_some

/-- A member that was read of any line is read again from its one-line form, as an attribute or a
method as it was.  So members that were read of lines without line feeds are read again, all of them
and in order, from their one-line forms with line feeds between them. -/
theorem comesBack_shown :
    (∀ (line : List Char) (m : Member) (isMethod : Bool), parse? line = some (m, isMethod) →
      parse? m.shown = some (m, isMethod))
    ∧ ∀ ms : List Member,
      (∀ m ∈ ms, ∃ line isMethod, '\n' ∉ line ∧ parse? line = some (m, isMethod)) →
      parseLines (join ['\n'] (ms.map shown)) = ms := by
  constructor
  · intro line m isMethod
    exact parse?_shown
  · intro ms h
    refine parseLines_join_shown fun m hm => ?_
    obtain ⟨line, isMethod, hline, hparse⟩ := h m hm
    exact ⟨by rw [parse?_shown hparse, Option.map_some], lineFeed_notMem_shown hline hparse⟩

/-- A static attribute whose text starts with a second mark of visibility, and an abstract method with
a dollar sign inside, with blanks and marks all over the place. -/
theorem comesBack_shown_marked :
    parse? " + +tags : List * $ $*".toList
      = some (⟨"+tags : List", some .everyone, true, true⟩, false)
    ∧ parse? "++tags : List$*".toList = some (⟨"+tags : List", some .everyone, true, true⟩, false)
    ∧ parseLines "++tags : List$*\ndraw($ x)*".toList
      = [⟨"+tags : List", some .everyone, true, true⟩, ⟨"draw($ x)", none, false, true⟩] := by
  have htags : parse? " + +tags : List * $ $*".toList
      = some (⟨"+tags : List", some .everyone, true, true⟩, false) := by cbv
  have hdraw : parse? "draw($ x) *\t*".toList = some (⟨"draw($ x)", none, false, true⟩, true) := by cbv
  obtain ⟨hone, hall⟩ := comesBack_shown
  have hboth := hall [⟨"+tags : List", some .everyone, true, true⟩, ⟨"draw($ x)", none, false, true⟩]
    fun m hm => by
      simp only [List.mem_cons, List.not_mem_nil, or_false] at hm
      rcases hm with rfl | rfl
      · exact ⟨_, _, by decide, htags⟩
      · exact ⟨_, _, by decide, hdraw⟩
  exact ⟨htags, hone _ _ _ htags, hboth⟩

end DiagramBoard.Member
