/-
DiagramBoard.Proofs.Grammar.Lines — the content lines of a text that was written line by line.

Main statements: a text of lines, each ended by a line feed, has just these lines
(`lines_flatMap`); if each of them carries content they are the content lines, trimmed
(`contentLines_flatMap`); and every content line is trimmed, has no line feed and is no comment
(`trim_of_mem_contentLines`, `lineFeed_notMem_of_mem_contentLines`).
-/
import DiagramBoard.Proofs.Text.Whole

namespace DiagramBoard.Text

/-! ## Lines -/

theorem lines_append {l : List Char} (h : '\n' ∉ l) (rest : List Char) :
    lines (l ++ '\n' :: rest) = l :: lines rest := by
  induction l with
  | nil => simp [lines]
  | cons c l ih =>
    have hc : c ≠ '\n' := fun e => h (e ▸ List.mem_cons_self)
    have hl : '\n' ∉ l := fun m => h (List.mem_cons_of_mem _ m)
    simp [lines, hc, ih hl]

/-- Lines that were ended by line feeds are read back. -/
theorem lines_flatMap {ls : List (List Char)} (h : ∀ l ∈ ls, '\n' ∉ l) :
    lines (ls.flatMap fun l => l ++ ['\n']) = ls := by
  induction ls with
  | nil => rfl
  | cons l ls ih =>
    rw [List.flatMap_cons, List.append_assoc, List.singleton_append,
      lines_append (h l List.mem_cons_self), ih fun m hm => h m (List.mem_cons_of_mem _ hm)]

theorem lines_singleton {l : List Char} (h : '\n' ∉ l) (hne : l ≠ []) : lines l = [l] := by
  induction l with
  | nil => exact absurd rfl hne
  | cons c l ih =>
    have hc : c ≠ '\n' := fun e => h (e ▸ List.mem_cons_self)
    have hl : '\n' ∉ l := fun m => h (List.mem_cons_of_mem _ m)
    cases l with
    | nil => simp [lines, hc]
    | cons d l => rw [lines, if_neg hc, ih hl (by simp)]

/-- Lines that were joined by line feeds are read back if none of them is empty. -/
theorem lines_join {ls : List (List Char)} (h : ∀ l ∈ ls, '\n' ∉ l ∧ l ≠ []) :
    lines (join ['\n'] ls) = ls := by
  fun_induction join ['\n'] ls with
  | case1 => rfl
  | case2 l => exact lines_singleton (h l List.mem_cons_self).1 (h l List.mem_cons_self).2
  | case3 l ls hls ih =>
    rw [List.append_assoc, List.singleton_append, lines_append (h l List.mem_cons_self).1,
      ih fun m hm => h m (List.mem_cons_of_mem _ hm)]

/-- A line has no line feed. -/
theorem lineFeed_notMem_of_mem_lines {l s : List Char} (h : l ∈ lines s) : '\n' ∉ l := by
  induction s generalizing l with
  | nil => simp [lines] at h
  | cons c s ih =>
    rw [lines] at h
    split at h
    · rcases List.mem_cons.1 h with rfl | h
      · simp
      · exact ih h
    · rename_i hc
      have hne : '\n' ≠ c := Ne.symm hc
      split at h
      · obtain rfl := List.mem_singleton.1 h
        simpa using hne
      · rename_i m ls hls
        rcases List.mem_cons.1 h with rfl | h
        · have hm := ih (l := m) (by simp [hls])
          simp [hne, hm]
        · exact ih (by simp [hls, h])

end DiagramBoard.Text

namespace DiagramBoard.Grammar

open Text

/-! ## Content lines -/

/-- Whether a trimmed line carries content: it is not blank and no comment. -/
def IsContent (text : List Char) : Prop := text ≠ [] ∧ startsWith "%%" text = false

/-- A line that starts with a character other than a percent sign carries content. -/
theorem isContent_cons {c : Char} (hc : c ≠ '%') (s : List Char) : IsContent (c :: s) := by
  have hp : ('%' == c) = false := by simpa using Ne.symm hc
  refine ⟨by simp, ?_⟩
  show List.isPrefixOf ('%' :: ['%']) (c :: s) = false
  simp [List.isPrefixOf, hp]

/-- Behind some content every line that carries content counts. -/
theorem map_text_contentFrom {ls : List (List Char)} (n : Nat)
    (h : ∀ l ∈ ls, IsContent (trim l)) :
    (contentFrom n false true ls).map (·.text) = ls.map trim := by
  induction ls generalizing n with
  | nil => rfl
  | cons l ls ih =>
    obtain ⟨h1, h2⟩ := h l List.mem_cons_self
    rw [contentFrom]
    simp [h1, h2, ih (n + 1) fun m hm => h m (List.mem_cons_of_mem _ hm)]

/-- The content lines of a text that was written line by line, if its first line is no `---`. -/
theorem contentLines_flatMap {header : List Char} {body : List (List Char)}
    (hn : ∀ l ∈ header :: body, '\n' ∉ l) (hc : ∀ l ∈ header :: body, IsContent (trim l))
    (hd : trim header ≠ "---".toList) :
    ∃ ls, contentLines ((header :: body).flatMap fun l => l ++ ['\n']) = ⟨1, trim header⟩ :: ls
      ∧ ls.map (·.text) = body.map trim := by
  obtain ⟨h1, h2⟩ := hc header List.mem_cons_self
  refine ⟨contentFrom 2 false true body, ?_,
    map_text_contentFrom 2 fun l hl => hc l (List.mem_cons_of_mem _ hl)⟩
  have hd' : trim header ≠ ['-', '-', '-'] := hd
  rw [contentLines, lines_flatMap hn, contentFrom]
  simp [h1, h2, hd']

/-- What every content line is. -/
theorem of_mem_contentFrom {l : Line} {ls : List (List Char)} {n : Nat} {i s : Bool}
    (h : l ∈ contentFrom n i s ls) :
    (∃ raw ∈ ls, l.text = trim raw) ∧ IsContent l.text := by
  fun_induction contentFrom n i s ls with
  | case1 => simp at h
  | case2 _ _ _ raw rest _ _ ih =>
    obtain ⟨⟨r, hr, he⟩, hc⟩ := ih h
    exact ⟨⟨r, List.mem_cons_of_mem _ hr, he⟩, hc⟩
  | case3 _ _ _ raw rest _ _ _ ih =>
    obtain ⟨⟨r, hr, he⟩, hc⟩ := ih h
    exact ⟨⟨r, List.mem_cons_of_mem _ hr, he⟩, hc⟩
  | case4 _ _ _ raw rest text _ hb ih =>
    rcases List.mem_cons.1 h with rfl | h
    · exact ⟨⟨raw, List.mem_cons_self, rfl⟩, by simp_all [IsContent]⟩
    · obtain ⟨⟨r, hr, he⟩, hc⟩ := ih h
      exact ⟨⟨r, List.mem_cons_of_mem _ hr, he⟩, hc⟩

/-- A content line is trimmed. -/
theorem trim_of_mem_contentLines {l : Line} {text : List Char} (h : l ∈ contentLines text) :
    trim l.text = l.text := by
  obtain ⟨⟨raw, -, he⟩, -⟩ := of_mem_contentFrom h
  rw [he, trim_trim]

/-- A content line has no line feed. -/
theorem lineFeed_notMem_of_mem_contentLines {l : Line} {text : List Char}
    (h : l ∈ contentLines text) : '\n' ∉ l.text := by
  obtain ⟨⟨raw, hraw, he⟩, -⟩ := of_mem_contentFrom h
  rw [he]
  exact fun hm => lineFeed_notMem_of_mem_lines hraw ((trim_sublist raw).subset hm)

/-- A content line is no comment. -/
theorem isContent_of_mem_contentLines {l : Line} {text : List Char} (h : l ∈ contentLines text) :
    IsContent l.text :=
  (of_mem_contentFrom h).2

end DiagramBoard.Grammar
