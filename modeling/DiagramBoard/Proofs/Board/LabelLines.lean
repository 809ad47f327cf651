/-
DiagramBoard.Proofs.Board.LabelLines — what becomes of the lines of a label on a board.

A label goes to a board with line feeds between its lines and comes back with tags.  Nothing is lost
on the way there, since neither a line feed nor a tag can start inside a line.  On the way back each
line loses the blanks at its end.  A text on a board has no line behind its last line feed, though,
where a label does have one.  So a label that ends in a break comes back with a line less.

Main statements: what comes back from a board (`lines_ofCanvas_toCanvas`); a label is shown as
before, blanks apart, and takes as many lines as before exactly if it does not end in a break
(`toCanvas_ofCanvas_toCanvas_iff`, `lineCount_ofCanvas_toCanvas`); and it comes back the same from
then on exactly if what came back does not end in one (`ofCanvas_toCanvas_again_iff`), which it does
at last (`exists_settled`).
-/
import DiagramBoard.Proofs.Board.Fitting
import DiagramBoard.Proofs.Grammar.Lines

namespace DiagramBoard.Text

/-! ## Lines that are joined by line feeds -/

theorem join_eq_intercalate (separator : List Char) (ls : List (List Char)) :
    join separator ls = separator.intercalate ls := by
  fun_induction join separator ls with
  | case1 => rfl
  | case2 l => exact List.intercalate_singleton.symm
  | case3 l ls hls ih =>
    obtain ⟨m, ls, rfl⟩ := List.exists_cons_of_ne_nil hls
    rw [ih, List.intercalate_cons_cons]

/-- Whether the last of several lines is empty. -/
def EndsEmpty (ls : List (List Char)) : Prop := 1 < ls.length ∧ ls.getLast? = some []

instance (ls : List (List Char)) : Decidable (EndsEmpty ls) :=
  inferInstanceAs (Decidable (_ ∧ _))

/-- Lines without an empty one behind the others. -/
def dropEmptyEnd (ls : List (List Char)) : List (List Char) :=
  if EndsEmpty ls then ls.dropLast else ls

theorem mem_of_mem_dropEmptyEnd {l : List Char} {ls : List (List Char)} (h : l ∈ dropEmptyEnd ls) :
    l ∈ ls := by
  unfold dropEmptyEnd at h
  split at h
  · exact List.mem_of_mem_dropLast h
  · exact h

theorem length_dropEmptyEnd (ls : List (List Char)) :
    (dropEmptyEnd ls).length + (if EndsEmpty ls then 1 else 0) = ls.length := by
  unfold dropEmptyEnd
  split
  · next h =>
    have hlen := h.1
    rw [List.length_dropLast]
    omega
  · rfl

theorem dropEmptyEnd_ne_nil {ls : List (List Char)} (hls : ls ≠ []) : dropEmptyEnd ls ≠ [] := by
  have hlen := length_dropEmptyEnd ls
  have hpos := List.length_pos_iff.2 hls
  refine List.length_pos_iff.1 ?_
  by_cases h : EndsEmpty ls
  · have hmany := h.1
    rw [if_pos h] at hlen
    omega
  · rw [if_neg h] at hlen
    omega

theorem dropEmptyEnd_cons {ls : List (List Char)} (hls : ls ≠ []) (l : List Char) :
    dropEmptyEnd (l :: ls) = l :: if ls = [[]] then [] else dropEmptyEnd ls := by
  obtain ⟨m, ls, rfl⟩ := List.exists_cons_of_ne_nil hls
  have hends : EndsEmpty (l :: m :: ls) ↔ m :: ls = [[]] ∨ EndsEmpty (m :: ls) := by
    cases ls <;> simp [EndsEmpty]
  by_cases hempty : m :: ls = [[]]
  · rw [dropEmptyEnd, if_pos (hends.2 (.inl hempty)), if_pos hempty, hempty]
    rfl
  · rw [dropEmptyEnd, dropEmptyEnd, if_neg hempty, apply_ite (List.cons l)]
    exact if_congr (hends.trans (or_iff_right hempty)) rfl rfl

/-- A text of lines that were joined by line feeds has these lines, but no empty one at the end. -/
theorem lines_join_lineFeed {ls : List (List Char)} (h : ∀ l ∈ ls, '\n' ∉ l) :
    lines (join ['\n'] ls) = if ls = [[]] then [] else dropEmptyEnd ls := by
  fun_induction join ['\n'] ls with
  | case1 => rfl
  | case2 l =>
    by_cases hl : l = []
    · rw [hl]
      rfl
    · rw [lines_singleton (h l List.mem_cons_self) hl, if_neg (by simpa using hl)]
      rfl
  | case3 l ls hls ih =>
    have hmany : l :: ls ≠ [[]] := by simpa using fun _ => hls
    rw [List.append_assoc, List.singleton_append, lines_append (h l List.mem_cons_self),
      ih fun m hm => h m (List.mem_cons_of_mem _ hm), if_neg hmany, dropEmptyEnd_cons hls]

/-- A text with the blanks at the ends of its lines taken away. -/
def trimLines (text : List Char) : List Char := join ['\n'] ((text.splitOn '\n').map trimEnd)

theorem trimEnd_trimEnd (s : List Char) : trimEnd (trimEnd s) = trimEnd s :=
  trimEnd_eq_self (trimEnd_last s)

namespace Label

/-! ## Lines and breaks -/

/-- Whether no break starts anywhere in a text. -/
def IsLine (l : List Char) : Prop := ∀ t, t <:+ l → breakLength t = 0

/-- Whether a text is a break and nothing else. -/
def IsBreak (b : List Char) : Prop := b ≠ [] ∧ breakLength b = b.length

theorem isBreak_lineFeed : IsBreak ['\n'] := ⟨by simp, rfl⟩

theorem isBreak_tag : IsBreak "<br/>".toList := ⟨by decide, by decide⟩

theorem isLine_cons_iff {c : Char} {l : List Char} :
    IsLine (c :: l) ↔ breakLength (c :: l) = 0 ∧ IsLine l := by
  simp [IsLine, List.suffix_cons_iff]

/-- What starts with a break still does so with more text behind it. -/
theorem breakLength_append_of_ne_zero {s : List Char} (h : breakLength s ≠ 0) (r : List Char) :
    breakLength (s ++ r) = breakLength s := by
  fun_cases breakLength s <;> simp_all [breakLength]

/-- The start of a line is a line. -/
theorem IsLine.of_append {l r : List Char} (h : IsLine (l ++ r)) : IsLine l := by
  rintro t ⟨p, rfl⟩
  by_contra hbreak
  have hwhole := h (t ++ r) ⟨p, by simp⟩
  rw [breakLength_append_of_ne_zero hbreak] at hwhole
  exact hbreak hwhole

/-- The lines that a label shows are lines. -/
theorem isLine_of_mem_lines {l s : List Char} (h : l ∈ lines s) : IsLine l := by
  induction s using split.induct generalizing l with
  | case1 =>
    obtain rfl : l = [] := by simpa [lines, split_nil] using h
    intro t ht
    rw [List.suffix_nil.1 ht]
    rfl
  | case2 c r hzero ih =>
    rw [lines, split_cons_of_zero hzero] at h
    rcases List.mem_cons.1 h with rfl | h
    · have hline : IsLine (split r).1 := ih List.mem_cons_self
      refine isLine_cons_iff.2 ⟨?_, hline⟩
      -- the line is the start of the text, where no break starts
      by_contra hbreak
      have hwhole := breakLength_append_of_ne_zero hbreak
        ((split r).2.flatMap fun q => q.1 ++ q.2)
      have hjoin : (split r).1 ++ (split r).2.flatMap (fun q => q.1 ++ q.2) = r := rejoin_split r
      rw [List.cons_append, hjoin, hzero] at hwhole
      exact hbreak hwhole.symm
    · exact ih (List.mem_cons_of_mem _ h)
  | case3 c r n hbreak ih =>
    rw [lines, split_cons_of_succ hbreak] at h
    rcases List.mem_cons.1 h with rfl | h
    · intro t ht
      rw [List.suffix_nil.1 ht]
      rfl
    · exact ih (by simpa only [lines, List.map_cons] using h)

theorem IsLine.lineFeed_notMem {l : List Char} (h : IsLine l) : '\n' ∉ l := by
  intro hmem
  obtain ⟨s, t, rfl⟩ := List.append_of_mem hmem
  exact absurd (h _ (List.suffix_append s _)) (by simp [breakLength])

theorem IsLine.trimEnd {l : List Char} (h : IsLine l) : IsLine (trimEnd l) := by
  obtain ⟨t, ht, -⟩ := trimEnd_prefix_eq l
  exact IsLine.of_append (ht ▸ h)

/-- What breaks start with. -/
theorem IsBreak.exists_eq_cons {b : List Char} (h : IsBreak b) :
    ∃ c r, b = c :: r ∧ (c = '\n' ∨ c = '<') := by
  obtain ⟨hne, hlen⟩ := h
  have hzero : breakLength b ≠ 0 := by
    rw [hlen]
    exact Nat.ne_of_gt (List.length_pos_iff.2 hne)
  revert hzero
  fun_cases breakLength b <;> simp

/-! ## Lines that are joined by breaks -/

/-- A line is split off at the break behind it. -/
theorem split_append {l b : List Char} (hl : IsLine l) (hb : IsBreak b) (r : List Char) :
    split (l ++ (b ++ r)) = (l, (b, (split r).1) :: (split r).2) := by
  obtain ⟨c, b', rfl, hc⟩ := hb.exists_eq_cons
  induction l with
  | nil =>
    have hbreak : breakLength (c :: (b' ++ r)) = b'.length + 1 := by
      have hlen : breakLength (c :: b') = b'.length + 1 := hb.2
      rw [← List.cons_append, breakLength_append_of_ne_zero (by rw [hlen]; simp), hlen]
    simp [split_cons_of_succ hbreak]
  | cons d l ih =>
    obtain ⟨hd, hl⟩ := isLine_cons_iff.1 hl
    have hzero : breakLength (d :: (l ++ (c :: b' ++ r))) = 0 :=
      (breakLength_append (List.cons_ne_nil d l) hc (b' ++ r)).trans hd
    rw [List.cons_append, split_cons_of_zero hzero, ih hl]

theorem split_of_isLine {l : List Char} (hl : IsLine l) : split l = (l, []) := by
  induction l with
  | nil => exact split_nil
  | cons c l ih =>
    obtain ⟨hc, hl⟩ := isLine_cons_iff.1 hl
    rw [split_cons_of_zero hc, ih hl]

/-- A line is read up to the break behind it. -/
theorem lines_append {l b : List Char} (hl : IsLine l) (hb : IsBreak b) (r : List Char) :
    lines (l ++ (b ++ r)) = l :: lines r := by
  rw [lines, split_append hl hb, lines, List.map_cons]

theorem lines_of_isLine {l : List Char} (hl : IsLine l) : lines l = [l] := by
  rw [lines, split_of_isLine hl, List.map_nil]

/-- Lines that were joined by breaks are read back. -/
theorem lines_join {b : List Char} (hb : IsBreak b) {ls : List (List Char)} (hls : ls ≠ [])
    (h : ∀ l ∈ ls, IsLine l) : lines (join b ls) = ls := by
  fun_induction join b ls with
  | case1 => exact absurd rfl hls
  | case2 l => exact lines_of_isLine (h l List.mem_cons_self)
  | case3 l ls hne ih =>
    rw [List.append_assoc, lines_append (h l List.mem_cons_self) hb,
      ih hne fun m hm => h m (List.mem_cons_of_mem _ hm)]

theorem lines_join_trimmed {b : List Char} (hb : IsBreak b) {ls : List (List Char)} (hls : ls ≠ [])
    (h : ∀ l ∈ ls, IsLine l) : lines (join b (ls.map trimEnd)) = ls.map trimEnd :=
  lines_join hb (mt List.map_eq_nil_iff.1 hls) fun l hl => by
    obtain ⟨m, hm, rfl⟩ := List.mem_map.1 hl
    exact (h m hm).trimEnd

/-! ## To a board and back -/

variable (label : List Char)

theorem lines_ne_nil : lines label ≠ [] := List.cons_ne_nil _ _

/-- On a board a label has the same lines. -/
theorem lines_toCanvas : lines (toCanvas label) = lines label :=
  lines_join isBreak_lineFeed (lines_ne_nil label) fun _ => isLine_of_mem_lines

/-- They are what is between the line feeds there. -/
theorem splitOn_toCanvas : (toCanvas label).splitOn '\n' = lines label := by
  rw [toCanvas, join_eq_intercalate]
  exact List.splitOn_intercalate '\n' (fun l hl => (isLine_of_mem_lines hl).lineFeed_notMem)
    (lines_ne_nil label)

/-- The lines of a label that come back from a board. -/
def returned (ls : List (List Char)) : List (List Char) := (dropEmptyEnd ls).map trimEnd

theorem ofCanvas_toCanvas :
    ofCanvas (toCanvas label) = join "<br/>".toList (returned (lines label)) := by
  rw [ofCanvas, toCanvas,
    lines_join_lineFeed fun l hl => (isLine_of_mem_lines hl).lineFeed_notMem]
  split
  · next h =>
    rw [h]
    rfl
  · rfl

/-- A label comes back from a board without an empty line behind the others and without the blanks
at the ends of its lines. -/
theorem lines_ofCanvas_toCanvas :
    lines (ofCanvas (toCanvas label)) = returned (lines label) := by
  rw [ofCanvas_toCanvas]
  exact lines_join_trimmed isBreak_tag (dropEmptyEnd_ne_nil (lines_ne_nil label)) fun l hl =>
    isLine_of_mem_lines (mem_of_mem_dropEmptyEnd hl)

/-- A label takes one line less than before if its last line is an empty one behind others, and as
many as before otherwise. -/
theorem lineCount_ofCanvas_toCanvas :
    lineCount (ofCanvas (toCanvas label)) + (if EndsEmpty (lines label) then 1 else 0)
      = lineCount label := by
  rw [lineCount, lines_ofCanvas_toCanvas, returned, List.length_map, length_dropEmptyEnd]
  rfl

theorem returned_of_not_endsEmpty {ls : List (List Char)} (h : ¬ EndsEmpty ls) :
    returned ls = ls.map trimEnd := by
  rw [returned, dropEmptyEnd, if_neg h]

/-- A label that came back is drawn as it was, blanks at the ends of lines apart, exactly if its
last line is no empty one behind others. -/
theorem toCanvas_ofCanvas_toCanvas_iff :
    toCanvas (ofCanvas (toCanvas label)) = trimLines (toCanvas label)
      ↔ ¬ EndsEmpty (lines label) := by
  rw [trimLines, splitOn_toCanvas]
  constructor
  · intro h hempty
    have hcount := lineCount_ofCanvas_toCanvas label
    -- both texts would have the same number of lines
    have hlines := congrArg (fun t => (lines t).length) h
    have htrimmed := lines_join_trimmed isBreak_lineFeed (lines_ne_nil label)
      fun _ => isLine_of_mem_lines
    simp only [lines_toCanvas, htrimmed, List.length_map] at hlines
    rw [if_pos hempty, lineCount, lineCount, hlines] at hcount
    omega
  · intro h
    rw [toCanvas, lines_ofCanvas_toCanvas, returned_of_not_endsEmpty h]

/-- A label that came back from a board comes back the same again exactly if its last line is no
empty one behind others. -/
theorem ofCanvas_toCanvas_again_iff :
    ofCanvas (toCanvas (ofCanvas (toCanvas label))) = ofCanvas (toCanvas label)
      ↔ ¬ EndsEmpty (lines (ofCanvas (toCanvas label))) := by
  constructor
  · intro h hempty
    have hcount := lineCount_ofCanvas_toCanvas (ofCanvas (toCanvas label))
    rw [h, if_pos hempty] at hcount
    omega
  · intro h
    have htrim : (returned (lines label)).map trimEnd = returned (lines label) := by
      rw [returned, List.map_map]
      exact List.map_congr_left fun l _ => trimEnd_trimEnd l
    rw [ofCanvas_toCanvas (ofCanvas _), returned_of_not_endsEmpty h, lines_ofCanvas_toCanvas, htrim,
      ofCanvas_toCanvas label]

/-- A label that goes to a board and back again and again loses a line each time until it stays as it
is, which it does after as many times as it has lines. -/
theorem exists_settled : ∃ n ≤ lineCount label,
    ofCanvas (toCanvas ((ofCanvas ∘ toCanvas)^[n] label)) = (ofCanvas ∘ toCanvas)^[n] label := by
  -- by induction on the lines of what came back once, whose blanks are gone
  have hback : ∀ k, ∀ label : List Char, lineCount (ofCanvas (toCanvas label)) = k →
      ∃ n < k, (ofCanvas ∘ toCanvas)^[n + 2] label = (ofCanvas ∘ toCanvas)^[n + 1] label := by
    intro k
    induction k using Nat.strong_induction_on with
    | _ k ih =>
      intro label hk
      by_cases hempty : EndsEmpty (lines (ofCanvas (toCanvas label)))
      · have hcount := lineCount_ofCanvas_toCanvas (ofCanvas (toCanvas label))
        rw [if_pos hempty, hk] at hcount
        obtain ⟨n, hn, hsettled⟩ := ih _ (by omega) (ofCanvas (toCanvas label)) rfl
        exact ⟨n + 1, by omega, hsettled⟩
      · exact ⟨0, hk ▸ lineCount_pos _, (ofCanvas_toCanvas_again_iff label).2 hempty⟩
  obtain ⟨n, hn, hsettled⟩ := hback _ label rfl
  have hcount := lineCount_ofCanvas_toCanvas label
  refine ⟨n + 1, by omega, ?_⟩
  rwa [Function.iterate_succ_apply'] at hsettled

/-- A label is settled after it came back once if its last line is not blank. -/
theorem not_endsEmpty_of_last (h : ∀ l ∈ (lines label).getLast?, trimEnd l ≠ []) :
    ¬ EndsEmpty (lines label) ∧ ¬ EndsEmpty (lines (ofCanvas (toCanvas label))) := by
  have hnot : ¬ EndsEmpty (lines label) := fun hempty => h [] hempty.2 rfl
  refine ⟨hnot, fun hempty => ?_⟩
  have hlast := hempty.2
  rw [lines_ofCanvas_toCanvas, returned_of_not_endsEmpty hnot, List.getLast?_map,
    Option.map_eq_some_iff] at hlast
  obtain ⟨l, hl, hblank⟩ := hlast
  exact h l hl hblank

/-- A label with a break at its end comes back with a line less, and with two of them it does so
twice. -/
theorem not_returns_closingBreak :
    toCanvas (ofCanvas (toCanvas "A<br/>".toList)) ≠ trimLines (toCanvas "A<br/>".toList)
      ∧ lineCount (ofCanvas (toCanvas "A<br/>".toList)) ≠ lineCount "A<br/>".toList
      ∧ ofCanvas (toCanvas (ofCanvas (toCanvas "A<br/><br/>".toList)))
        ≠ ofCanvas (toCanvas "A<br/><br/>".toList) := by
  have hone : lines "A<br/>".toList = [['A'], []] := by
    cbv
  have htwo : lines "A<br/><br/>".toList = [['A'], [], []] := by
    cbv
  refine ⟨?_, ?_, ?_⟩
  · rw [Ne, toCanvas_ofCanvas_toCanvas_iff, hone]
    decide
  · rw [lineCount, lineCount, lines_ofCanvas_toCanvas, hone]
    decide
  · rw [Ne, ofCanvas_toCanvas_again_iff, lines_ofCanvas_toCanvas, htwo]
    decide

end Label

end DiagramBoard.Text
