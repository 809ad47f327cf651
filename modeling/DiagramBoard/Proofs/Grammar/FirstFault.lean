/-
DiagramBoard.Proofs.Grammar.FirstFault — an error points at the first line that is at fault.

A reader goes through the lines from the first one on and stops at the first fault, so what it
reports of that line depends on the lines up to it only (`FailsFirstAt`).  The lines of a flowchart
are read in this way (`Draft.readLines_eq_error`), and so are the header and the lines below it
(`parseContent_eq_error`); and the content lines up to one are those of the lines up to it
(`exists_of_contentFrom_eq`).

Main statement: the error of a text is that of its first faulty line, and texts whose header selects
another grammar than that of flowcharts have none (`Diagram.isFirstFault_or_ok`).
-/
import DiagramBoard.Grammar
import DiagramBoard.Proofs.Grammar.FlowchartDraft
import DiagramBoard.Proofs.Grammar.Lines

namespace DiagramBoard

open Text

namespace Grammar

/-! ## Content lines -/

/-- The blanks around lines make no difference to their content. -/
theorem contentFrom_map_trim (n : Nat) (inside started : Bool) (ls : List (List Char)) :
    contentFrom n inside started (ls.map trim) = contentFrom n inside started ls := by
  induction ls generalizing n inside started with
  | nil => rfl
  | cons raw ls ih => simp only [List.map_cons, contentFrom, trim_trim, ih]

/-- What a line does: it is passed over or is a content line, whatever follows it. -/
theorem contentFrom_cons (n : Nat) (inside started : Bool) (raw : List Char) :
    ∃ inside' started',
      (∀ ls, contentFrom n inside started (raw :: ls) = contentFrom (n + 1) inside' started' ls)
      ∨ ∀ ls, contentFrom n inside started (raw :: ls)
        = ⟨n, trim raw⟩ :: contentFrom (n + 1) inside' started' ls := by
  by_cases hmark : (trim raw = "---".toList && (inside || !started)) = true
  · exact ⟨!inside, started, .inl fun ls => if_pos hmark⟩
  · by_cases hskip : (inside || trim raw = [] || startsWith "%%" (trim raw)) = true
    · exact ⟨inside, started, .inl fun ls => (if_neg hmark).trans (if_pos hskip)⟩
    · exact ⟨inside, true, .inr fun ls => (if_neg hmark).trans (if_neg hskip)⟩

/-- A content line comes from a line, the content lines before it come from the lines before that,
and whatever follows the line, the content lines up to it are these. -/
theorem exists_of_contentFrom_eq {n : Nat} {inside started : Bool} {ls : List (List Char)}
    {pre post : List Line} {l : Line} (h : contentFrom n inside started ls = pre ++ l :: post) :
    ∃ before raw after, ls = before ++ raw :: after ∧ l = ⟨n + before.length, trim raw⟩
      ∧ contentFrom n inside started before = pre
      ∧ ∀ rest, ∃ post', contentFrom n inside started (before ++ raw :: rest) = pre ++ l :: post' := by
  induction ls generalizing n inside started pre with
  | nil => simp [contentFrom] at h
  | cons raw₀ ls ih =>
    have hnumber : ∀ before : List (List Char),
        n + 1 + before.length = n + (raw₀ :: before).length := fun before => by
      rw [List.length_cons]
      omega
    obtain ⟨inside', started', hstep | hstep⟩ := contentFrom_cons n inside started raw₀
    · obtain ⟨before, raw, after, rfl, rfl, hpre, hrest⟩ := ih ((hstep ls).symm.trans h)
      exact ⟨raw₀ :: before, raw, after, rfl, by rw [hnumber], (hstep before).trans hpre,
        fun rest => (hrest rest).imp fun _ hpost => (hstep _).trans hpost⟩
    · cases pre with
      | nil =>
        obtain ⟨rfl, -⟩ := List.cons.inj ((hstep ls).symm.trans h)
        exact ⟨[], raw₀, ls, rfl, rfl, rfl, fun rest => ⟨_, hstep rest⟩⟩
      | cons k pre =>
        obtain ⟨rfl, htail⟩ := List.cons.inj ((hstep ls).symm.trans h)
        obtain ⟨before, raw, after, rfl, rfl, hpre, hrest⟩ := ih htail
        exact ⟨raw₀ :: before, raw, after, rfl, by rw [hnumber],
          (hstep before).trans (congrArg _ hpre),
          fun rest => (hrest rest).imp fun _ hpost => (hstep _).trans (congrArg _ hpost)⟩

/-! ## The first fault of lines -/

/-- Whether an error of a reader is that of the first line at fault: it has the number of the line,
the lines before it are read, and whatever follows, this is the error. -/
structure FailsFirstAt {β : Type} (read : List Line → Except SyntaxError β) (e : SyntaxError)
    (pre : List Line) (l : Line) : Prop where
  line : e.line = some l.number
  ok : ∃ b, read pre = .ok b
  error : ∀ rest, read (pre ++ l :: rest) = .error e

section

variable {α : Type} [Scalar α]

namespace Flowchart

theorem Draft.readLine_eq_error {lenient : Bool} {d : Draft α} {l : Line} {e : SyntaxError}
    (h : d.readLine lenient l = .error e) : lenient = false ∧ e.line = some l.number := by
  unfold Draft.readLine at h
  split at h
  case h_5 | h_6 =>
    split at h
    · simp at h
    · next hlenient => exact ⟨by simpa using hlenient, by rw [← Except.error.inj h]⟩
  all_goals simp at h

/-- Lines fail at the first one that does. -/
theorem Draft.readLines_eq_error {lenient : Bool} {d : Draft α} {ls : List Line} {e : SyntaxError}
    (h : d.readLines lenient ls = .error e) :
    lenient = false ∧ ∃ pre l post, ls = pre ++ l :: post
      ∧ FailsFirstAt (d.readLines lenient) e pre l := by
  induction ls generalizing d with
  | nil => simp [Draft.readLines] at h
  | cons l ls ih =>
    rw [Draft.readLines] at h
    cases hl : d.readLine lenient l with
    | error err =>
      rw [hl] at h
      obtain rfl := Except.error.inj h
      obtain ⟨hlenient, hline⟩ := Draft.readLine_eq_error hl
      exact ⟨hlenient, [], l, ls, rfl, hline, ⟨d, rfl⟩, fun rest => by
        rw [List.nil_append, Draft.readLines, hl]
        rfl⟩
    | ok d' =>
      rw [hl] at h
      obtain ⟨hlenient, pre, k, post, rfl, hfails⟩ := ih h
      have hstep : ∀ ms, d.readLines lenient (l :: ms) = d'.readLines lenient ms := fun ms => by
        rw [Draft.readLines, hl]
        rfl
      exact ⟨hlenient, l :: pre, k, post, rfl, hfails.line,
        hfails.ok.imp fun b hb => (hstep pre).trans hb,
        fun rest => (hstep _).trans (hfails.error rest)⟩

theorem parse_eq_error {lenient : Bool} {ls : List Line} {e : SyntaxError}
    (h : (parse lenient ls : Except SyntaxError (Diagram α)) = .error e) :
    lenient = false ∧ ∃ pre l post, ls = pre ++ l :: post
      ∧ FailsFirstAt (parse (α := α) lenient) e pre l := by
  cases hread : Draft.readLines lenient ({} : Draft α) ls with
  | ok d => simp [parse, hread, Except.map] at h
  | error err =>
    obtain rfl : err = e := by simpa [parse, hread, Except.map] using h
    obtain ⟨hlenient, pre, l, post, hls, hfails⟩ := Draft.readLines_eq_error hread
    obtain ⟨d, hd⟩ := hfails.ok
    exact ⟨hlenient, pre, l, post, hls, hfails.line, ⟨d.finish, by rw [parse, hd]; rfl⟩,
      fun rest => by rw [parse, hfails.error]; rfl⟩

end Flowchart

theorem line_of_headerDirection {header : Line} {e : SyntaxError}
    (h : headerDirection header = .error e) : e.line = some header.number := by
  unfold headerDirection at h
  split at h
  · simp at h
  · dsimp only at h
    split at h
    · simp at h
    · rw [← Except.error.inj h]

/-- The diagram on content lines. -/
def parseContent : List Line → Except SyntaxError (Diagram α)
  | [] => .ok {}
  | header :: body => parseBody header body

theorem parse_eq_parseContent (text : String) :
    (Diagram.parse text : Except SyntaxError (Diagram α)) = parseContent (contentLines text.toList) := by
  unfold Diagram.parse parseContent
  rfl

theorem parseBody_of_tolerant {header : Line} {kind : Header} (hkind : kind ≠ .flowchart)
    (hword : Header.ofWord? (firstWord header.text) = some kind) (body : List Line) :
    ∃ d : Diagram α, parseBody header body = .ok d := by
  simp only [parseBody, hword]
  cases kind with
  | flowchart => exact absurd rfl hkind
  | c4 =>
    cases hparse : (Flowchart.parse true body : Except SyntaxError (Diagram α)) with
    | error e => exact absurd (Flowchart.parse_eq_error hparse).1 (by decide)
    | ok d => exact ⟨{ d with kind := .c4 }, rfl⟩
  | _ => exact ⟨_, rfl⟩

theorem parseBody_of_none {header : Line} (hword : Header.ofWord? (firstWord header.text) = none)
    (body : List Line) : (parseBody header body : Except SyntaxError (Diagram α))
      = .error ⟨some header.number, .unknownKind (firstWord header.text)⟩ := by
  simp only [parseBody, hword]

theorem parseBody_of_flowchart {header : Line}
    (hword : Header.ofWord? (firstWord header.text) = some .flowchart) (body : List Line) :
    (parseBody header body : Except SyntaxError (Diagram α))
      = (headerDirection header).bind fun direction =>
          (Flowchart.parse false body).map fun d => { d with direction := direction } := by
  simp only [parseBody, hword]

/-- Content lines fail at the first one that does. -/
theorem parseContent_eq_error {ls : List Line} {e : SyntaxError}
    (h : (parseContent ls : Except SyntaxError (Diagram α)) = .error e) :
    ∃ pre l post, ls = pre ++ l :: post ∧ FailsFirstAt (parseContent (α := α)) e pre l := by
  cases ls with
  | nil => simp [parseContent] at h
  | cons header body =>
    rw [parseContent] at h
    cases hword : Header.ofWord? (firstWord header.text) with
    | none =>
      -- the header is at fault
      rw [parseBody_of_none hword] at h
      obtain rfl := Except.error.inj h
      exact ⟨[], header, body, rfl, rfl, ⟨{}, rfl⟩, fun rest => parseBody_of_none hword rest⟩
    | some kind =>
      by_cases hkind : kind = .flowchart
      · subst hkind
        have hbody := parseBody_of_flowchart (α := α) hword
        rw [hbody] at h
        cases hdirection : headerDirection header with
        | error err =>
          rw [hdirection] at h
          obtain rfl : err = e := Except.error.inj h
          exact ⟨[], header, body, rfl, line_of_headerDirection hdirection, ⟨{}, rfl⟩,
            fun rest => by rw [List.nil_append, parseContent, hbody, hdirection]; rfl⟩
        | ok direction =>
          have hcontent : ∀ ms, (parseContent (header :: ms) : Except SyntaxError (Diagram α))
              = (Flowchart.parse false ms).map fun d => { d with direction := direction } :=
            fun ms => by rw [parseContent, hbody, hdirection]; rfl
          rw [hdirection] at h
          cases hparse : (Flowchart.parse false body : Except SyntaxError (Diagram α)) with
          | ok d => simp [hparse, Except.bind, Except.map] at h
          | error err =>
            obtain rfl : err = e := by simpa [hparse, Except.bind, Except.map] using h
            obtain ⟨-, pre, l, post, rfl, hfails⟩ := Flowchart.parse_eq_error hparse
            obtain ⟨d, hd⟩ := hfails.ok
            exact ⟨header :: pre, l, post, rfl, hfails.line,
              ⟨{ d with direction := direction }, by rw [hcontent, hd]; rfl⟩,
              fun rest => by rw [List.cons_append, hcontent, hfails.error]; rfl⟩
      · obtain ⟨d, hd⟩ := parseBody_of_tolerant (α := α) hkind hword body
        rw [hd] at h
        simp at h

end

/-! ## Headers -/

theorem toLower_of_isBlank {c : Char} (h : isBlank c = true) : c.toLower = c := by
  unfold Char.toLower
  split
  · next hupper =>
    have h1 : 65 ≤ c.toNat := hupper.1
    have h2 : c.toNat ≤ 90 := hupper.2
    simp only [isBlank, Bool.or_eq_true, Bool.and_eq_true, decide_eq_true_eq, beq_iff_eq] at h
    omega
  · rfl

/-- What a text starts with, in any letter case, its first word starts with, if that is a word. -/
theorem startsWith_firstWord {word : String} (hword : ∀ c ∈ word.toList, isBlank c = false)
    {s : List Char} (hs : trimStart s = s) (h : startsWith word (lowerAscii s) = true) :
    startsWith word (lowerAscii (firstWord s)) = true := by
  obtain ⟨t, ht⟩ := List.isPrefixOf_iff_prefix.1 h
  obtain ⟨a, b, rfl, ha, -⟩ := List.map_eq_append_iff.1 ht.symm
  have hnonblank : ∀ c ∈ a, (!isBlank c) = true := by
    intro c hc
    have hlower : isBlank c.toLower = false := hword _ (ha ▸ List.mem_map_of_mem hc)
    cases hblank : isBlank c with
    | false => rfl
    | true => rw [toLower_of_isBlank hblank, hblank] at hlower; cases hlower
  refine List.isPrefixOf_iff_prefix.2 ⟨(b.takeWhile fun c => !isBlank c).map Char.toLower, ?_⟩
  rw [firstWord, hs, List.takeWhile_append_of_pos hnonblank, lowerAscii, List.map_append, ha]

/-- Whether the first content line of a text begins with the header of another grammar than that of
flowcharts. -/
def HasTolerantHeader (text : String) : Prop :=
  ∃ header body, contentLines text.toList = header :: body
    ∧ ∃ start ∈ headerStarts, startsWith start.1 (lowerAscii header.text) = true

theorem ofWord?_of_startsWith {word : List Char} {start : String × Header}
    (hstart : start ∈ headerStarts) (h : startsWith start.1 (lowerAscii word) = true) :
    ∃ kind, Header.ofWord? word = some kind ∧ kind ≠ .flowchart := by
  have hkinds : ∀ p ∈ headerStarts, p.2 ≠ .flowchart := by decide
  have hsome : (headerStarts.findSome? fun p =>
      if startsWith p.1 (lowerAscii word) then some p.2 else none).isSome = true :=
    List.findSome?_isSome_iff.2 ⟨start, hstart, by rw [if_pos h]; rfl⟩
  obtain ⟨kind, hkind⟩ := Option.isSome_iff_exists.1 hsome
  obtain ⟨p, hp, hpkind⟩ := List.exists_of_findSome?_eq_some hkind
  refine ⟨kind, by rw [Header.ofWord?, hkind]; rfl, ?_⟩
  split at hpkind
  · exact Option.some.inj hpkind ▸ hkinds p hp
  · cases hpkind

/-- Texts with a header of another grammar are all read. -/
theorem exists_parse_of_hasTolerantHeader {α : Type} [Scalar α] {text : String}
    (h : HasTolerantHeader text) : ∃ d : Diagram α, Diagram.parse text = .ok d := by
  obtain ⟨header, body, hcontent, start, hstart, hstarts⟩ := h
  have hnonblank : ∀ c ∈ start.1.toList, isBlank c = false := by
    have hall : headerStarts.all (fun p => p.1.toList.all fun c => !isBlank c) = true := by decide
    intro c hc
    simpa using List.all_eq_true.1 (List.all_eq_true.1 hall start hstart) c hc
  have htrim : trimStart header.text = header.text := by
    have hself : trim header.text = header.text :=
      trim_of_mem_contentLines (by rw [hcontent]; exact List.mem_cons_self)
    exact trimStart_eq_self (hself ▸ trim_head header.text)
  obtain ⟨kind, hword, hkind⟩ :=
    ofWord?_of_startsWith hstart (startsWith_firstWord hnonblank htrim hstarts)
  rw [parse_eq_parseContent, hcontent]
  exact parseBody_of_tolerant hkind hword body

end Grammar

/-! ## The first fault of a text -/

/-- The first lines of a text, each ended by a line feed. -/
def firstLines (n : Nat) (text : String) : String :=
  String.ofList (((lines text.toList).take n).flatMap fun l => l ++ ['\n'])

open Grammar

/-- Whether an error is that of the line behind the first `n` ones of a text: it has the number of
that line, which carries content, the lines before it are a diagram, and every text whose first
lines up to that one are the same has the same error. -/
structure IsFirstFault (α : Type) [Scalar α] (text : String) (e : SyntaxError) (n : Nat) : Prop where
  line : e.line = some (n + 1)
  content : ∃ raw, (lines text.toList)[n]? = some raw ∧ IsContent (trim raw)
  before : ∃ d : Diagram α, Diagram.parse (firstLines n text) = .ok d
  error : ∀ other : String, ((lines other.toList).take (n + 1)).map trim
      = ((lines text.toList).take (n + 1)).map trim →
    (Diagram.parse other : Except SyntaxError (Diagram α)) = .error e

variable {α : Type} [Scalar α]

theorem isFirstFault_of_parse {text : String} {e : SyntaxError}
    (h : (Diagram.parse text : Except SyntaxError (Diagram α)) = .error e) :
    ∃ n, IsFirstFault α text e n := by
  rw [parse_eq_parseContent] at h
  obtain ⟨pre, l, post, hcontent, hfails⟩ := parseContent_eq_error h
  obtain ⟨before, raw, after, hlines, rfl, hpre, hrest⟩ := exists_of_contentFrom_eq hcontent
  refine ⟨before.length, ?_, ⟨raw, ?_, ?_⟩, ?_, fun other hother => ?_⟩
  · rw [hfails.line, Nat.add_comm]
  · rw [hlines]
    simp
  · exact isContent_of_mem_contentLines (l := ⟨1 + before.length, trim raw⟩)
      (by rw [hcontent]; simp)
  · have hfirst : lines (firstLines before.length text).toList = before := by
      have htake : (lines text.toList).take before.length = before := by rw [hlines]; simp
      rw [firstLines, String.toList_ofList, htake]
      refine lines_flatMap fun l hl => lineFeed_notMem_of_mem_lines (s := text.toList) ?_
      rw [hlines]
      exact List.mem_append_left _ hl
    obtain ⟨d, hd⟩ := hfails.ok
    exact ⟨d, by rw [parse_eq_parseContent, contentLines, hfirst, hpre, hd]⟩
  · have htake : (lines text.toList).take (before.length + 1) = before ++ [raw] := by
      rw [hlines, List.take_append]
      simp
    have hother' : contentFrom 1 false false (lines other.toList)
        = contentFrom 1 false false (before ++ raw :: (lines other.toList).drop (before.length + 1)) := by
      rw [← contentFrom_map_trim, ← List.take_append_drop (before.length + 1) (lines other.toList),
        List.map_append, hother, htake, ← List.map_append, contentFrom_map_trim]
      simp
    obtain ⟨post', hpost⟩ := hrest ((lines other.toList).drop (before.length + 1))
    rw [parse_eq_parseContent, contentLines, hother', hpost, hfails.error]

/-- Every error is that of the first line at fault, and a text with a header of another grammar than
that of flowcharts has none. -/
theorem Diagram.isFirstFault_or_ok (text : String) :
    (∀ e, (Diagram.parse text : Except SyntaxError (Diagram α)) = .error e →
        ∃ n, IsFirstFault α text e n)
      ∧ (HasTolerantHeader text → ∃ d : Diagram α, Diagram.parse text = .ok d) :=
  ⟨fun _ => isFirstFault_of_parse, exists_parse_of_hasTolerantHeader⟩

/-- A text with front matter, a comment and a blank line, and with two faults. -/
def twoFaults : String :=
  "---\ntitle: Flow\n---\n%% nodes\r\nflowchart LR\n\n  A --> B\n?? oops\nC -->\n"

/-- A text with the same faults below the header of another grammar. -/
def tolerated : String := "%% nodes\n  C4Context\n?? oops\nC -->\n"

/-- The first of two faults counts, and below another header neither does. -/
theorem Diagram.isFirstFault_twoFaults :
    (∃ n, IsFirstFault Float twoFaults ⟨some 8, .unreadable "?? oops".toList⟩ n)
      ∧ ∃ d : Diagram Float, Diagram.parse tolerated = .ok d := by
  have herror : (match (Diagram.parse twoFaults : Except SyntaxError (Diagram Float)) with
      | .error e => some e
      | .ok _ => none) = some ⟨some 8, .unreadable "?? oops".toList⟩ := by decide +kernel
  have htolerant : HasTolerantHeader tolerated :=
    ⟨⟨2, "C4Context".toList⟩, [⟨3, "?? oops".toList⟩, ⟨4, "C -->".toList⟩], by decide +kernel,
      ("c4", .c4), by decide, by decide +kernel⟩
  refine ⟨?_, (isFirstFault_or_ok tolerated).2 htolerant⟩
  cases hparse : (Diagram.parse twoFaults : Except SyntaxError (Diagram Float)) with
  | ok d => simp [hparse] at herror
  | error e =>
    rw [hparse] at herror
    obtain rfl := Option.some.inj herror
    exact (isFirstFault_or_ok twoFaults).1 _ hparse

end DiagramBoard
