/-
DiagramBoard.Proofs.Text.LabelCuts — a label is cut into its lines and the breaks between them.

A cut of a label is a list of lines, one more than there are breaks, which give the label when the
breaks are put between them.  Each break is a line feed or a tag in some letter case, and no line has
one anywhere inside.  A line feed or an angle bracket stands at the start of every break and nowhere
else in one, so no break overlaps the line in front of it, and no tag is the start of another.  That is
why there is no choice: a label has one cut.

Main statements: what breaks are, and what lines are (`isBreak_iff`, `isLine_iff`); and the lines of a
label with the breaks that were found between them are its only cut (`isCut_iff`).
-/
import DiagramBoard.Proofs.Board.LabelLines

namespace DiagramBoard.Text

/-! ## Letter case -/

/-- A character that is some other one in lower case is that one, in one of its two cases. -/
theorem eq_or_eq_toUpper_of_toLower {c d : Char} (h : c.toLower = d) : c = d ∨ c = d.toUpper := by
  by_cases hupper : c.isUpper = true
  · right
    rw [← h, Char.toUpper_toLower_eq_toUpper,
      Char.toUpper_eq_of_not_isLower (Char.not_isLower_of_isUpper hupper)]
  · left
    rw [← h, Char.toLower_eq_of_not_isUpper hupper]

/-- A text that is in lower case one without letters is that text. -/
theorem eq_of_lowerAscii {s e : List Char} (h : lowerAscii s = e) (he : ∀ c ∈ e, c.toUpper = c) :
    s = e := by
  have hsame : ∀ c ∈ s, c.toLower = c := by
    intro c hc
    have hupper : c.toLower.toUpper = c.toLower := he _ (h ▸ List.mem_map_of_mem hc)
    rcases eq_or_eq_toUpper_of_toLower (c := c) rfl with heq | heq
    · exact heq.symm
    · exact (heq.trans hupper).symm
  rw [← h, lowerAscii, List.map_congr_left hsame, List.map_id']

namespace Label

/-! ## Tags -/

/-- The tags that break a line, in lower case. -/
def tags : List (List Char) := ["<br>".toList, "<br/>".toList, "<br />".toList]

/-- Whether a text is one of the tags in any letter case. -/
def IsTag (t : List Char) : Prop := lowerAscii t ∈ tags

theorem isTagName_iff {b r : Char} : isTagName b r = true ↔ b.toLower = 'b' ∧ r.toLower = 'r' := by
  have hletter : ∀ c d : Char, d.toLower = d → d.toUpper.toLower = d →
      (c.toLower = d ↔ c = d ∨ c = d.toUpper) := by
    intro c d hlower hupper
    refine ⟨eq_or_eq_toUpper_of_toLower, ?_⟩
    rintro (rfl | rfl)
    · exact hlower
    · exact hupper
  rw [hletter b 'b' (by decide) (by decide), hletter r 'r' (by decide) (by decide)]
  have hb : 'b'.toUpper = 'B' := by decide
  have hr : 'r'.toUpper = 'R' := by decide
  simp [isTagName, hb, hr]

/-- What a tag has behind its name. -/
def ends : List (List Char) := [">".toList, "/>".toList, " />".toList]

/-- A tag is an opening bracket, its name and one of the ends. -/
theorem isTag_iff {t : List Char} :
    IsTag t ↔ ∃ b r, ∃ e ∈ ends, t = '<' :: b :: r :: e ∧ isTagName b r = true := by
  have hsign : ∀ e ∈ ['<'] :: ends, ∀ c ∈ e, c.toUpper = c := by simp [ends, Char.toUpper]
  constructor
  · intro h
    obtain ⟨e, he, ht⟩ : ∃ e ∈ ends, t.map Char.toLower = '<' :: 'b' :: 'r' :: e := by
      simpa [IsTag, tags, ends, lowerAscii] using h
    obtain ⟨a, t, rfl, ha, ht⟩ := List.map_eq_cons_iff.1 ht
    obtain ⟨b, t, rfl, hb, ht⟩ := List.map_eq_cons_iff.1 ht
    obtain ⟨r, t, rfl, hr, ht⟩ := List.map_eq_cons_iff.1 ht
    have ha : [a] = ['<'] :=
      eq_of_lowerAscii (congrArg (fun c => [c]) ha) (hsign _ List.mem_cons_self)
    have ht : t = e := eq_of_lowerAscii ht (hsign e (List.mem_cons_of_mem _ he))
    rw [List.singleton_inj.1 ha, ht]
    exact ⟨b, r, e, he, rfl, isTagName_iff.2 ⟨hb, hr⟩⟩
  · rintro ⟨b, r, e, he, rfl, hname⟩
    obtain ⟨hb, hr⟩ := isTagName_iff.1 hname
    have hlower : ∀ e ∈ ends, '<' :: 'b' :: 'r' :: lowerAscii e ∈ tags := by decide
    simpa [IsTag, lowerAscii, hb, hr] using hlower e he

/-! ## Breaks -/

/-- A break is a line feed or a tag. -/
theorem isBreak_iff {b : List Char} : IsBreak b ↔ b = ['\n'] ∨ IsTag b := by
  constructor
  · rintro ⟨hne, hlen⟩
    have hzero : breakLength b ≠ 0 := fun h => hne (List.eq_nil_of_length_eq_zero (hlen ▸ h))
    rw [isTag_iff]
    -- nothing stands behind the break, since it is as long as the text
    fun_cases breakLength b <;> simp_all [breakLength, ends]
  · rintro (rfl | h)
    · exact isBreak_lineFeed
    · obtain ⟨b, r, e, he, rfl, hname⟩ := isTag_iff.1 h
      refine ⟨List.cons_ne_nil _ _, ?_⟩
      fin_cases he <;> simp [breakLength, hname]

/-- What a text starts with where a break was found is a break. -/
theorem isBreak_take {s : List Char} (h : breakLength s ≠ 0) : IsBreak (s.take (breakLength s)) := by
  have hle := breakLength_le_length s
  have hlen : (s.take (breakLength s)).length = breakLength s := List.length_take_of_le hle
  refine ⟨List.ne_nil_of_length_pos (by omega), ?_⟩
  rw [hlen]
  fun_cases breakLength s <;> simp_all [breakLength]

/-- A line has neither a line feed nor a tag anywhere inside. -/
theorem isLine_iff {l : List Char} : IsLine l ↔ '\n' ∉ l ∧ ∀ t, IsTag t → ¬ t <:+: l := by
  constructor
  · intro h
    refine ⟨h.lineFeed_notMem, ?_⟩
    rintro t ht ⟨p, q, rfl⟩
    obtain ⟨hne, hlen⟩ := isBreak_iff.2 (.inr ht)
    have hzero : breakLength t ≠ 0 := by simpa [hlen] using hne
    have hstart := h (t ++ q) ⟨p, by simp⟩
    rw [breakLength_append_of_ne_zero hzero] at hstart
    exact hzero hstart
  · rintro ⟨hfeed, htag⟩ t ht
    by_contra hbreak
    have hinside : t.take (breakLength t) <:+: l := (List.take_prefix _ t).isInfix.trans ht.isInfix
    rcases isBreak_iff.1 (isBreak_take hbreak) with hb | hb
    · exact hfeed (hinside.subset (hb ▸ List.mem_cons_self))
    · exact htag _ hb hinside

/-! ## Cuts -/

/-- Lines with breaks between them. -/
def interleave : List (List Char) → List (List Char) → List Char
  | l :: ls, b :: bs => l ++ (b ++ interleave ls bs)
  | ls, [] => ls.flatten
  | [], bs => bs.flatten

/-- Whether a label is cut into lines, in which there is no break, at the breaks between them. -/
structure IsCut (label : List Char) (ls bs : List (List Char)) : Prop where
  isLine : ∀ l ∈ ls, '\n' ∉ l ∧ ∀ t, IsTag t → ¬ t <:+: l
  isBreak : ∀ b ∈ bs, b = ['\n'] ∨ IsTag b
  length_eq : ls.length = bs.length + 1
  interleave_eq : interleave ls bs = label

/-- The breaks that are found between the lines of a label. -/
def breaks (label : List Char) : List (List Char) := (split label).2.map (·.1)

theorem interleave_eq_rejoin (l : List Char) (qs : List (List Char × List Char)) :
    interleave (l :: qs.map (·.2)) (qs.map (·.1)) = rejoin (l, qs) := by
  induction qs generalizing l with
  | nil => simp [interleave, rejoin]
  | cons q qs ih => simp [interleave, ih, rejoin]

theorem isBreak_of_mem_breaks {b label : List Char} (h : b ∈ breaks label) : IsBreak b := by
  unfold breaks at h
  fun_induction split label with
  | case1 => simp at h
  | case2 c r _ p ih => exact ih h
  | case3 c r n hbreak p ih =>
    rw [List.map_cons] at h
    rcases List.mem_cons.1 h with rfl | h
    · have htake := isBreak_take (s := c :: r) (by rw [hbreak]; exact Nat.succ_ne_zero n)
      rwa [hbreak] at htake
    · exact ih h

/-- The lines of a label and the breaks that were found are a cut of it. -/
theorem isCut_lines (label : List Char) : IsCut label (lines label) (breaks label) where
  isLine _ hl := isLine_iff.1 (isLine_of_mem_lines hl)
  isBreak _ hb := isBreak_iff.1 (isBreak_of_mem_breaks hb)
  length_eq := by simp [lines, breaks]
  interleave_eq := (interleave_eq_rejoin _ _).trans (rejoin_split label)

variable {label b : List Char} {ls bs : List (List Char)}

/-- Without breaks a cut is the label itself. -/
theorem isCut_nil_iff : IsCut label ls [] ↔ ls = [label] ∧ IsLine label := by
  constructor
  · rintro ⟨hline, -, hlen, rfl⟩
    obtain ⟨l, rfl⟩ := List.length_eq_one_iff.1 hlen
    rw [interleave, List.flatten_singleton]
    exact ⟨rfl, isLine_iff.2 (hline l List.mem_cons_self)⟩
  · rintro ⟨rfl, hline⟩
    exact ⟨by simpa using isLine_iff.1 hline, by simp, rfl, by simp [interleave]⟩

/-- A cut goes on behind its first break. -/
theorem isCut_cons_iff : IsCut label ls (b :: bs) ↔ ∃ l ls' r, ls = l :: ls' ∧ label = l ++ (b ++ r)
    ∧ IsLine l ∧ IsBreak b ∧ IsCut r ls' bs := by
  constructor
  · rintro ⟨hline, hbreak, hlen, rfl⟩
    obtain ⟨l, ls, rfl⟩ := List.exists_cons_of_length_eq_add_one hlen
    obtain ⟨hl, hls⟩ := List.forall_mem_cons.1 hline
    obtain ⟨hb, hbs⟩ := List.forall_mem_cons.1 hbreak
    exact ⟨l, ls, interleave ls bs, rfl, rfl, isLine_iff.2 hl, isBreak_iff.2 hb,
      ⟨hls, hbs, Nat.succ_inj.1 hlen, rfl⟩⟩
  · rintro ⟨l, ls, r, rfl, rfl, hl, hb, hr⟩
    exact ⟨List.forall_mem_cons.2 ⟨isLine_iff.1 hl, hr.isLine⟩,
      List.forall_mem_cons.2 ⟨isBreak_iff.1 hb, hr.isBreak⟩,
      congrArg (· + 1) hr.length_eq, by rw [interleave, hr.interleave_eq]⟩

/-- A label has no other cut. -/
theorem isCut_iff : IsCut label ls bs ↔ ls = lines label ∧ bs = breaks label := by
  constructor
  · intro h
    -- by induction on the breaks: the first line is split off at the first of them
    induction bs generalizing label ls with
    | nil =>
      obtain ⟨rfl, hline⟩ := isCut_nil_iff.1 h
      rw [lines, breaks, split_of_isLine hline]
      exact ⟨rfl, rfl⟩
    | cons b bs ih =>
      obtain ⟨l, ls, r, rfl, rfl, hl, hb, hr⟩ := isCut_cons_iff.1 h
      obtain ⟨hls, hbs⟩ := ih hr
      rw [lines, breaks, split_append hl hb, hls, hbs]
      exact ⟨rfl, rfl⟩
  · rintro ⟨rfl, rfl⟩
    exact isCut_lines label

end Label

end DiagramBoard.Text
